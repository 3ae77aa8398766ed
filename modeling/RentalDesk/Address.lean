import RentalDesk.Text.Digits

/-!
# Addresses

An address to listen at is a host and a number of two bytes, divided by the last colon. The host is
the name of the own machine or a number of four bytes. Such a number is written in one to four
parts with points between them: all parts but the last are bytes, and the last one takes the bytes
that are left. A part is hexadecimal behind `0x`, octal behind a zero, and decimal otherwise.
-/

namespace RentalDesk

open Text

/-- The address of a listener. -/
structure Address where
  host : UInt8 × UInt8 × UInt8 × UInt8
  number : UInt16
deriving DecidableEq, Repr

namespace Address

/-- The number that digits of a radix denote, if there is a digit. -/
def readDigits? (radix : Nat) (digits : List Char) : Option Nat :=
  if digits.isEmpty then none
  else
    (digits.mapM (digitValue? radix)).map fun values =>
      values.foldl (fun n value => radix * n + value) 0

def readPart? (text : String) : Option Nat :=
  match text.toList with
  | '0' :: 'x' :: digits | '0' :: 'X' :: digits => readDigits? 16 digits
  | '0' :: digits => readDigits? 8 ('0' :: digits)
  | digits => readDigits? 10 digits

/-- The number of a host with the given parts, of which the first is so many bytes from the end. -/
def joinParts? : Nat → List Nat → Option Nat
  | bytes, [last] => if last < twoPow (8 * bytes) then some last else none
  | bytes + 1, byte :: parts =>
    if byte < 256 then (joinParts? bytes parts).map (byte * twoPow (8 * bytes) + ·) else none
  | _, _ => none

/-- A host in numbers or by name. -/
def readHost? (text : String) : Option Nat :=
  if text.map Char.toLower = "localhost" then joinParts? 4 [127, 1]
  else ((text.splitOn ".").mapM readPart?).bind (joinParts? 4)

def hostBytes (n : Nat) : UInt8 × UInt8 × UInt8 × UInt8 :=
  (.ofNat (n / twoPow 24), .ofNat (n / twoPow 16), .ofNat (n / twoPow 8), .ofNat n)

/-- The number behind the colon. -/
def readNumber? (text : String) : Option UInt16 :=
  match readWord 10 text.toList with
  | .ok n => if n.toNat < 65536 then some n.toUInt16 else none
  | .error _ => none

def ofText? (text : String) : Option Address :=
  match (text.splitOn ":").reverse with
  | [number, host] => do return ⟨hostBytes (← readHost? host), ← readNumber? number⟩
  | _ => none

end Address

end RentalDesk
