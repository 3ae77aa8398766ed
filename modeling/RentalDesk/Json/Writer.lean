import RentalDesk.Text.Digits

/-!
# Writing JSON

The compact form of stored rows: no blanks, and only those characters escaped that have to be. The
controls with a short escape use it; the others are written with four hexadecimal digits.
-/

namespace RentalDesk.Json

open Text

/-- The lower-case hexadecimal digit of a number below sixteen. -/
def hexDigit (n : Nat) : Char :=
  if n < 10 then Char.ofNat ('0'.toNat + n) else Char.ofNat ('a'.toNat + (n - 10))

/-- A character inside a string. -/
def escape (c : Char) : List Char :=
  if c = '"' then ['\\', '"']
  else if c = '\\' then ['\\', '\\']
  else if c = '\n' then ['\\', 'n']
  else if c = '\r' then ['\\', 'r']
  else if c = '\t' then ['\\', 't']
  else if c = '\x08' then ['\\', 'b']
  else if c = '\x0c' then ['\\', 'f']
  else if c.toNat < 0x20 then
    ['\\', 'u', '0', '0', hexDigit (c.toNat / 16), hexDigit (c.toNat % 16)]
  else [c]

def writeString (s : String) : List Char := '"' :: s.toList.flatMap escape ++ ['"']

def writeWord (n : UInt64) : List Char := natDigits n.toNat

/-- A truth value. -/
def writeBool (b : Bool) : List Char := (if b then "true" else "false").toList

/-- A value that can be absent. -/
def writeOptional {α : Type} (write : α → List Char) : Option α → List Char
  | some a => write a
  | none => "null".toList

/-- The members of an object behind the first one. -/
def writeMore : List (String × List Char) → List Char
  | [] => []
  | (name, value) :: members => ',' :: writeString name ++ ':' :: value ++ writeMore members

def writeObject : List (String × List Char) → List Char
  | [] => ['\x7b', '\x7d']
  | (name, value) :: members =>
    '\x7b' :: writeString name ++ ':' :: value ++ writeMore members ++ ['\x7d']

end RentalDesk.Json
