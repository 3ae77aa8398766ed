import RentalDesk.Settings
import RentalDesk.Text.Digits

/-!
# The command line

The program takes a command, options, and the argument of the command. Options stand before or
behind the command; one that stands in both places counts where it stands last, but none may stand
twice in one of them. Every option has an environment variable, which counts if the option is
missing. A variable has to be readable wherever its option is missing, even if the option counts
elsewhere.
-/

namespace RentalDesk

open Text

/-- The options. -/
inductive OptionName where
  | dbPath
  | catalog
  | baseFee
  | accrualRate
  | lockTimeout
  | bind
deriving DecidableEq, Repr

namespace OptionName

def flag : OptionName → String
  | .dbPath => "--db-path"
  | .catalog => "--catalog"
  | .baseFee => "--base-fee"
  | .accrualRate => "--accrual-rate"
  | .lockTimeout => "--lock-timeout-ms"
  | .bind => "--bind"

/-- The environment variable of an option. -/
def envName : OptionName → String
  | .dbPath => "FILMRENT_DB_PATH"
  | .catalog => "FILMRENT_CATALOG"
  | .baseFee => "FILMRENT_BASE_FEE"
  | .accrualRate => "FILMRENT_ACCRUAL_RATE"
  | .lockTimeout => "FILMRENT_LOCK_TIMEOUT_MS"
  | .bind => "FILMRENT_BIND"

/-- The options that stand before and behind every command. -/
def shared : List OptionName := [.dbPath, .catalog, .baseFee, .accrualRate, .lockTimeout]

def all : List OptionName := shared ++ [.bind]

/-- Whether a value can be read. Paths must not be empty. -/
def accepts (value : String) : OptionName → Bool
  | .dbPath | .catalog => value ≠ ""
  | .baseFee | .accrualRate => (Decimal.ofText? value).isSome
  | .lockTimeout => (readWord 10 value.toList).toOption.isSome
  | .bind => true

end OptionName

/-- Where arguments stand: before the command, or behind it. -/
inductive Level where
  | program
  | serve
  | replay
deriving DecidableEq, Repr

def Level.options : Level → List OptionName
  | .serve => OptionName.all
  | .program | .replay => OptionName.shared

/-- What is wrong with a command line. -/
inductive UsageError where
  | missingCommand
  | missingFile
  | unexpected (argument : String)
  | repeated (name : OptionName)
  | missingValue (name : OptionName)
  | badValue (name : OptionName) (value : String)
deriving DecidableEq, Repr

/-- The wording of a wrong command line. -/
def UsageError.message : UsageError → String
  | .missingCommand => "a command is required: serve or replay"
  | .missingFile => "the file to replay is required"
  | .unexpected argument => "unexpected argument '" ++ argument ++ "'"
  | .repeated name => "the option " ++ name.flag ++ " cannot be used multiple times"
  | .missingValue name => "a value is required for " ++ name.flag
  | .badValue name value => "invalid value '" ++ value ++ "' for " ++ name.flag

/-- Why no command is run. -/
inductive Halt where
  | help
  | version
  | usage (error : UsageError)
deriving DecidableEq, Repr

/-- The options of a level with their values, the first word of the level, and what is left behind
a command. -/
structure LevelArguments where
  given : List (OptionName × String)
  word : Option String
  rest : List String
deriving Repr

namespace LevelArguments

def value? (a : LevelArguments) (name : OptionName) : Option String :=
  (a.given.find? (·.1 = name)).map (·.2)

end LevelArguments

/-- An argument that begins with two hyphens: the flag, and the value behind an equals sign. -/
def splitFlag (argument : List Char) : String × Option String :=
  let flag := argument.takeWhile (· ≠ '=')
  (String.ofList flag,
    match argument.drop flag.length with
    | [] => none
    | _ :: value => some (String.ofList value))

/-- Whether an argument stands for itself. A hyphen alone does. -/
def isWord (argument : String) : Bool :=
  match argument.toList with
  | '-' :: _ :: _ => false
  | _ => true

def give (given : List (OptionName × String)) (name : OptionName) (value : String) :
    Except Halt (List (OptionName × String)) :=
  if ¬ name.accepts value then .error (.usage (.badValue name value))
  else if given.any (·.1 = name) then .error (.usage (.repeated name))
  else .ok ((name, value) :: given)

def refuse {α : Type} (argument : String) : Except Halt α :=
  .error (.usage (.unexpected argument))

/-- The only word of what stands behind two hyphens. -/
def lastWord (level : Level) (given : List (OptionName × String)) (word : Option String) :
    List String → Except Halt LevelArguments
  | [] => .ok ⟨given, word, []⟩
  | argument :: rest =>
    if level = .replay ∧ word.isNone ∧ rest.isEmpty ∧ argument ≠ "" then
      .ok ⟨given, some argument, []⟩
    else refuse argument

def letterFlag (level : Level) (argument : String) : Halt :=
  match argument.toList with
  | _ :: 'h' :: _ => .help
  | _ :: 'V' :: _ => if level = .program then .version else .usage (.unexpected argument)
  | _ => .usage (.unexpected argument)

/-- A flag of more letters that takes no value. -/
def wordFlag (level : Level) (argument : String) : Halt :=
  if argument = "--help" then .help
  else if argument = "--version" ∧ level = .program then .version
  else .usage (.unexpected argument)

/-- Reads the arguments of a level. The first word before the command is the command, and what
stands behind it is left. -/
def readLevel (level : Level) (given : List (OptionName × String)) (word : Option String) :
    List String → Except Halt LevelArguments
  | [] => .ok ⟨given, word, []⟩
  | argument :: rest =>
    match argument.toList with
    | ['-', '-'] => lastWord level given word rest
    | '-' :: '-' :: _ =>
      let (flag, value) := splitFlag argument.toList
      match level.options.find? (·.flag = flag), value, rest with
      | none, _, _ => .error (wordFlag level argument)
      | some name, some value, rest => do
        readLevel level (← give given name value) word rest
      | some name, none, [] => .error (.usage (.missingValue name))
      | some name, none, value :: rest =>
        if isWord value then do readLevel level (← give given name value) word rest
        else .error (.usage (.missingValue name))
    | '-' :: _ :: _ => .error (letterFlag level argument)
    | _ =>
      match level, word with
      | .program, _ => .ok ⟨given, some argument, rest⟩
      | .serve, _ => refuse argument
      | .replay, some _ => refuse argument
      | .replay, none =>
        if argument = "" then refuse argument else readLevel level given (some argument) rest

/-- What the program is to do. -/
inductive Job where
  | serve (address : String)
  | replay (file : String)
deriving DecidableEq, Repr

/-- A command with its settings. -/
structure Invocation where
  settings : Settings
  dbPath : Option String
  catalog : Option String
  job : Job
deriving DecidableEq

/-- The address that is served if none is given. -/
def standardAddress : String := "127.0.0.1:5000"

namespace Invocation

/-- Refuses an environment variable that cannot be read where its option is missing. -/
def checkEnvironment (env : OptionName → Option String) (level : Level) (a : LevelArguments) :
    Except Halt Unit :=
  level.options.forM fun name =>
    match a.value? name, env name with
    | none, some value =>
      if name.accepts value then .ok () else .error (.usage (.badValue name value))
    | _, _ => .ok ()

/-- The invocation of a command, given the values of its options. -/
def ofValues (value? : OptionName → Option String) (job : Job) : Invocation where
  settings :=
    { baseFee := ((value? .baseFee).bind Decimal.ofText?).getD Settings.standard.baseFee
      accrualRate :=
        ((value? .accrualRate).bind Decimal.ofText?).getD Settings.standard.accrualRate
      lockWaitMillis :=
        ((value? .lockTimeout).bind fun text => (readWord 10 text.toList).toOption).getD
          Settings.standard.lockWaitMillis }
  dbPath := value? .dbPath
  catalog := value? .catalog
  job := job

/-- Reads what stands behind a command. -/
def readCommand (env : OptionName → Option String) (program : LevelArguments) (level : Level) :
    Except Halt Invocation := do
  let command ← readLevel level [] none program.rest
  checkEnvironment env level command
  checkEnvironment env .program program
  let value? (name : OptionName) : Option String :=
    (command.value? name <|> program.value? name) <|> env name
  match level, command.word with
  | .replay, some file => return ofValues value? (.replay file)
  | .replay, none => throw (.usage .missingFile)
  | _, _ => return ofValues value? (.serve ((value? .bind).getD standardAddress))

/-- Reads the arguments of the program under the given environment variables. -/
def ofArguments (env : OptionName → Option String) (arguments : List String) :
    Except Halt Invocation := do
  let program ← readLevel .program [] none arguments
  match program.word, program.rest with
  | none, _ => throw (.usage .missingCommand)
  | some "serve", _ => readCommand env program .serve
  | some "replay", _ => readCommand env program .replay
  | some "help", [] | some "help", ["serve"] | some "help", ["replay"] | some "help", ["help"] =>
    throw .help
  | some "help", topic :: _ => refuse topic
  | some word, _ => refuse word

end Invocation

end RentalDesk
