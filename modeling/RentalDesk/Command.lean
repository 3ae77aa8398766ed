import RentalDesk.Rows
import RentalDesk.Text.Blank
import RentalDesk.Text.Digits

/-!
# Commands

A request line is a verb and its arguments, separated by semicolons, with optional blanks around
the line and around each field. Every argument is an identifier. A line is refused for the first
reason that applies: it is blank, its verb is unknown, it has a wrong number of arguments, or an
argument, counted from the left, is no identifier.
-/

namespace RentalDesk

open Text

/-- The verbs of the line protocol. -/
inductive Verb where
  | rent
  | pay
  | listFees
  | listRentals
  | listInvoices
  | listFilms
deriving DecidableEq, Repr

/-- The names of arguments in messages. -/
inductive ArgumentName where
  | itemId
  | renterId
  | feeId
deriving DecidableEq, Repr

/-- A request to the desk. -/
inductive Command where
  | rent (item : ItemId) (renter : RenterId)
  | pay (fee : FeeId) (renter : RenterId)
  | listFees (renter : RenterId)
  | listRentals (renter : RenterId)
  | listInvoices (renter : RenterId)
  | listFilms
deriving DecidableEq, Repr

/-- Why a line is no request. -/
inductive CommandError where
  | empty
  | unknownVerb (verb : String)
  | arity (verb : Verb) (count : Nat)
  | badId (name : ArgumentName) (text : String)
deriving DecidableEq, Repr

def Verb.toText : Verb → String
  | .rent => "RENT"
  | .pay => "PAY"
  | .listFees => "LIST_FEES"
  | .listRentals => "LIST_RENTALS"
  | .listInvoices => "LIST_INVOICES"
  | .listFilms => "LIST_FILMS"

def Verb.all : List Verb := [.rent, .pay, .listFees, .listRentals, .listInvoices, .listFilms]

/-- The verb of a word. Only the upper-case word is the verb. -/
def Verb.ofText? (s : String) : Option Verb := all.find? fun verb => verb.toText == s

def Verb.arguments : Verb → List ArgumentName
  | .rent => [.itemId, .renterId]
  | .pay => [.feeId, .renterId]
  | .listFees | .listRentals | .listInvoices => [.renterId]
  | .listFilms => []

/-- The argument in the words of messages. -/
def ArgumentName.toText : ArgumentName → String
  | .itemId => "itemId"
  | .renterId => "renterId"
  | .feeId => "feeId"

def CommandError.message : CommandError → String
  | .empty => "empty command"
  | .unknownVerb verb => "unknown command " ++ verb
  | .arity verb count =>
    verb.toText ++ " expects " ++ natText verb.arguments.length ++ " argument(s), got " ++
      natText count
  | .badId name text => name.toText ++ " is not a valid id: " ++ text

/-- The character between two fields of a line. -/
def fieldSeparator : Char := ';'

/-- The fields of a line. There is always one more than there are separators. -/
def splitFields : List Char → List (List Char)
  | [] => [[]]
  | c :: cs =>
    if c = fieldSeparator then [] :: splitFields cs
    else
      match splitFields cs with
      | [] => [[c]]
      | field :: fields => (c :: field) :: fields

theorem splitFields_ne_nil (cs : List Char) : splitFields cs ≠ [] := by
  cases cs with
  | nil => simp [splitFields]
  | cons c cs =>
    unfold splitFields
    split
    · simp
    · split <;> simp

/-- Reads an identifier with optional blanks around it. -/
def readId (name : ArgumentName) (field : List Char) : Except CommandError UInt64 :=
  match readWord 10 (trim field) with
  | .ok id => .ok id
  | .error _ => .error (.badId name (String.ofList field))

namespace Command

/-- The request of a verb with its arguments. -/
def ofFields (verb : Verb) (fields : List (List Char)) : Except CommandError Command :=
  match verb, fields with
  | .rent, [item, renter] => do
    let item ← readId .itemId item
    let renter ← readId .renterId renter
    return .rent item renter
  | .pay, [fee, renter] => do
    let fee ← readId .feeId fee
    let renter ← readId .renterId renter
    return .pay fee renter
  | .listFees, [renter] => return .listFees (← readId .renterId renter)
  | .listRentals, [renter] => return .listRentals (← readId .renterId renter)
  | .listInvoices, [renter] => return .listInvoices (← readId .renterId renter)
  | .listFilms, [] => return .listFilms
  | verb, fields => .error (.arity verb fields.length)

/-- Reads a request line. -/
def parse (line : List Char) : Except CommandError Command :=
  let line := trim line
  if line.isEmpty then .error .empty
  else
    match splitFields line with
    | [] => .error .empty
    | word :: fields =>
      let word := String.ofList (trim word)
      match Verb.ofText? word with
      | some verb => ofFields verb fields
      | none => .error (.unknownVerb word)

def verb : Command → Verb
  | .rent .. => .rent
  | .pay .. => .pay
  | .listFees _ => .listFees
  | .listRentals _ => .listRentals
  | .listInvoices _ => .listInvoices
  | .listFilms => .listFilms

/-- The identifiers of a request, in the order of its line. -/
def ids : Command → List UInt64
  | .rent item renter => [item, renter]
  | .pay fee renter => [fee, renter]
  | .listFees renter | .listRentals renter | .listInvoices renter => [renter]
  | .listFilms => []

/-- The shortest line of a request. -/
def toText (c : Command) : String :=
  c.ids.foldl (fun line id => line ++ ";" ++ idText id) c.verb.toText

end Command

end RentalDesk
