import RentalDesk.Binary64
import RentalDesk.Decimal.Text
import RentalDesk.Json.Reader
import RentalDesk.Json.Writer
import RentalDesk.Rows
import RentalDesk.Time.Text

/-!
# The text of rows

Rows are stored as JSON objects with one member for each field, in the order of the fields. Reading
takes the members in any order and ignores unknown names; a known name must not occur twice, and
only an optional field may be missing. The list of all fields in their order is read as well.
Amounts are written as strings, so that their number of decimals is kept, and are read from strings
and from numbers.
-/

namespace RentalDesk

open Text

namespace Json

/-- The whole number below `2 ^ 64` that a value is. -/
def toWord? : Json → Option UInt64
  | .number n =>
    if n.isInteger ∧ ¬ n.negative then (readWord 10 n.whole).toOption else none
  | _ => none

def toText? : Json → Option String
  | .string text => text
  | _ => none

/-- The truth value that a value is. -/
def toBool? : Json → Option Bool
  | .bool b => some b
  | _ => none

def toInstant? (j : Json) : Option Instant := j.toText?.bind Instant.ofText?

/-- Nothing for null, and a value of the given kind otherwise. -/
def toOptional? {α : Type} (read? : Json → Option α) : Json → Option (Option α)
  | .null => some none
  | j => (read? j).map some

end Json

namespace JsonNumber

/-- Appends digits to a number as long as it stays below `2 ^ 64`, and counts them. -/
def significand : List Char → Nat → Nat → Nat × Nat
  | [], n, count => (n, count)
  | c :: cs, n, count =>
    let next := 10 * n + natOfDigits [c]
    if next < twoPow 64 then significand cs next (count + 1) else (n, count)

/-- The binary number that a number is read as. Digits before the point that do not fit into a
64-bit word count as zeros, and such digits behind the point are dropped. -/
def toBinary? (n : JsonNumber) : Option Binary64 :=
  let (whole, wholeCount) := significand n.whole 0 0
  let (value, fractionCount) := significand n.fraction whole 0
  let shift : Int := (n.whole.length : Int) - wholeCount - fractionCount
  let exponent : Int :=
    match n.exponent with
    | none => 0
    | some (negative, digits) =>
      if negative then -(natOfDigits digits : Int) else natOfDigits digits
  Binary64.ofScientific? value (shift + exponent)

/-- The decimal of a number. Words of 64 bits are exact; other numbers are read as binary numbers
and taken by their shortest digits. -/
def toDecimal? (n : JsonNumber) : Option Decimal :=
  let value := natOfDigits n.whole
  if n.isInteger ∧ ¬ n.negative ∧ value < twoPow 64 then Decimal.ofNat? value
  else if n.isInteger ∧ n.negative ∧ value ≤ twoPow 63 then Decimal.ofInt? (-(value : Int))
  else
    n.toBinary?.bind fun x =>
      Decimal.readPlain? (Decimal.signText n.negative ++ x.positional)

end JsonNumber

/-- The amount that a value is. -/
def Json.toDecimal? : Json → Option Decimal
  | .string text => text.bind Decimal.ofText?
  | .number n => n.toDecimal?
  | _ => none

namespace Json

def named (name : String) (member : Option String × Json) : Bool := member.1 == some name

/-- The values of the fields with the given names: from an object in which none of them occurs
twice and all names are text, or from a list with one element for each field. -/
def fields? (names : List String) : Json → Option (List (Option Json))
  | .object members =>
    if members.all (fun member => member.1.isSome) ∧
        names.all (fun name => (members.filter (named name)).length ≤ 1) then
      some (names.map fun name => (members.find? (named name)).map (·.2))
    else none
  | .array elements => if elements.length = names.length then some (elements.map some) else none
  | _ => none

end Json

/-- Values that are stored as JSON text. -/
class RowText (α : Type) where
  /-- The value of JSON text that is already taken apart. -/
  ofJson? : Json → Option α
  /-- The compact JSON text of a value. -/
  write : α → List Char

namespace RowText

variable {α : Type} [RowText α]

def ofText? (s : String) : Option α := (Json.read? s.toList).bind ofJson?

/-- Reads a value from stored bytes. -/
def ofBytes? (bytes : List UInt8) : Option α := (Json.readBytes? bytes).bind ofJson?

def toText (a : α) : String := String.ofList (write a)

end RowText

namespace Decimal

/-- The exact text of an amount as a JSON string. -/
def writeRow (d : Decimal) : List Char := Json.writeString d.toText

instance : RowText Decimal := ⟨Json.toDecimal?, writeRow⟩

end Decimal

namespace Instant

def writeRow (i : Instant) : List Char := Json.writeString i.rowText

end Instant

namespace Item

def ofJson? (j : Json) : Option Item := do
  match ← j.fields? ["id", "title", "available"] with
  | [some id, some title, some available] =>
    return ⟨← id.toWord?, ← title.toText?, ← available.toBool?⟩
  | _ => none

def writeRow (item : Item) : List Char :=
  Json.writeObject [("id", Json.writeWord item.id), ("title", Json.writeString item.title),
    ("available", Json.writeBool item.available)]

instance : RowText Item := ⟨ofJson?, writeRow⟩

end Item

namespace Rental

def ofJson? (j : Json) : Option Rental := do
  match ← j.fields? ["id", "item_id", "renter_id", "rented_at", "returned_at"] with
  | [some id, some item, some renter, some rented, returned] =>
    return ⟨← id.toWord?, ← item.toWord?, ← renter.toWord?, ← rented.toInstant?,
      ← Json.toOptional? Json.toInstant? (returned.getD .null)⟩
  | _ => none

def writeRow (rental : Rental) : List Char :=
  Json.writeObject [("id", Json.writeWord rental.id), ("item_id", Json.writeWord rental.itemId),
    ("renter_id", Json.writeWord rental.renterId), ("rented_at", rental.rentedAt.writeRow),
    ("returned_at", Json.writeOptional Instant.writeRow rental.returnedAt)]

instance : RowText Rental := ⟨ofJson?, writeRow⟩

end Rental

namespace Fee

def ofJson? (j : Json) : Option Fee := do
  match ← j.fields? ["id", "rental_id", "amount", "reason", "settlement"] with
  | [some id, some rental, some amount, some reason, settlement] =>
    return ⟨← id.toWord?, ← rental.toWord?, ← amount.toDecimal?, ← reason.toText?,
      ← Json.toOptional? Json.toWord? (settlement.getD .null)⟩
  | _ => none

def writeRow (fee : Fee) : List Char :=
  Json.writeObject [("id", Json.writeWord fee.id), ("rental_id", Json.writeWord fee.rentalId),
    ("amount", fee.amount.writeRow), ("reason", Json.writeString fee.reason),
    ("settlement", Json.writeOptional Json.writeWord fee.settlement)]

instance : RowText Fee := ⟨ofJson?, writeRow⟩

end Fee

namespace Invoice

def ofJson? (j : Json) : Option Invoice := do
  match ← j.fields? ["id", "renter_id", "issued_at", "total"] with
  | [some id, some renter, some issued, some total] =>
    return ⟨← id.toWord?, ← renter.toWord?, ← issued.toInstant?, ← total.toDecimal?⟩
  | _ => none

def writeRow (invoice : Invoice) : List Char :=
  Json.writeObject [("id", Json.writeWord invoice.id),
    ("renter_id", Json.writeWord invoice.renterId), ("issued_at", invoice.issuedAt.writeRow),
    ("total", invoice.total.writeRow)]

instance : RowText Invoice := ⟨ofJson?, writeRow⟩

end Invoice

end RentalDesk
