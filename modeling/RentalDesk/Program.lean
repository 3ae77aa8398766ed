import RentalDesk.Address
import RentalDesk.CommandLine
import RentalDesk.Folder
import RentalDesk.House
import RentalDesk.Notice

/-!
# The program

The program opens a house and serves connections, or replays a file of requests and prints the
replies. It exits with 0 if all went well, with 2 if the command line is wrong, and with 1 if
anything else fails; what was printed before stays printed. Notices and errors go to the error
stream.
-/

namespace RentalDesk

/-- The name and the version of the program. -/
def versionText : String := "filmrent 0.1.0\n"

/-- How the program is used. -/
def helpText : String :=
  "Usage: filmrent [OPTIONS] <COMMAND>\n\nCommands:\n" ++
    "  serve   Serve the rental desk protocol over TCP\n" ++
    "  replay  Run request lines from a file and print the replies\n\nOptions:\n" ++
    String.join (OptionName.shared.map fun name => "  " ++ name.flag ++ "\n") ++
    "  -h, --help\n  -V, --version\n"

/-- What the program leaves behind. -/
structure Exit where
  code : UInt32
  output : String
  errors : List String
deriving DecidableEq

namespace Exit

def failed (output : String) (notices : List Notice) (message : String) : Exit :=
  ⟨1, output, notices.map Notice.line ++ ["Error: " ++ message]⟩

/-- The exit when no command is run. -/
def ofHalt : Halt → Exit
  | .help => ⟨0, helpText, []⟩
  | .version => ⟨0, versionText, []⟩
  | .usage e => ⟨2, "", ["error: " ++ e.message]⟩

end Exit

/-- How far a command gets before it takes requests. -/
inductive Progress where
  | exited (exit : Exit)
  /-- The program replays a file. -/
  | replaying (house : House) (stream : Bytes) (notices : List Notice)
  /-- The program waits for connections. -/
  | serving (house : House) (address : Address) (notices : List Notice)

namespace Invocation

/-- Opens the house of a command. Rows are kept in memory even if a path is given. -/
def openHouse (i : Invocation) (find : String → Except StreamCause Found) (clock : Instant) :
    Except (List Notice × Error) (House × List Notice) :=
  let notices := if i.dbPath.isSome ∧ i.settings.tariff.toBool then [Notice.memoryOnly] else []
  let catalog := i.catalog.map fun path => (find path).map Found.source
  match House.opened i.settings .memory catalog clock with
  | .error e => .error (notices, e)
  | .ok (h, added) =>
    match i.catalog, catalog with
    | some path, some (.ok source) =>
      .ok (h, notices ++ Notice.ofCatalog (Catalog.read source) ++ [.catalogLoaded path added])
    | _, _ => .ok (h, notices)

def start (i : Invocation) (find : String → Except StreamCause Found) (clock : Instant) :
    Progress :=
  match i.openHouse find clock with
  | .error (notices, e) => .exited (.failed "" notices e.message)
  | .ok (h, notices) =>
    match i.job with
    | .replay path =>
      match find path with
      | .ok (.file stream) => .replaying h stream notices
      | .ok .folder => .exited (.failed "" notices StreamCause.folder.toText)
      | .error cause => .exited (.failed "" notices cause.toText)
    | .serve text =>
      match Address.ofText? text with
      | some address => .serving h address notices
      | none => .exited (.failed "" notices StreamCause.badAddress.toText)

end Invocation

/-- The exit after a file was replayed, given its replies. -/
def Exit.ofServed (notices : List Notice) (served : Served) : Exit :=
  match served.fault with
  | none => ⟨0, served.output, notices.map Notice.line⟩
  | some cause => .failed served.output notices cause.toText

end RentalDesk
