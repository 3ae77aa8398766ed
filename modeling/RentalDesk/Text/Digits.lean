import RentalDesk.Powers

/-!
# Digits

Natural numbers as text: the decimal digits of a number, with zeros in front where a width is
asked for, and the reading of 64-bit words. Reading goes from left to right and stops at the first
fault, so of two faults in a text the earlier one is reported.
-/

namespace RentalDesk.Text

/-- The value of an ASCII digit in the given radix, letters of both cases counting from ten. -/
def digitValue? (radix : Nat) (c : Char) : Option Nat :=
  let value? :=
    if '0' ≤ c ∧ c ≤ '9' then some (c.toNat - '0'.toNat)
    else if 'a' ≤ c ∧ c ≤ 'z' then some (c.toNat - 'a'.toNat + 10)
    else if 'A' ≤ c ∧ c ≤ 'Z' then some (c.toNat - 'A'.toNat + 10)
    else none
  value?.filter (· < radix)

/-- The number that a list of decimal digits denotes. -/
def natOfDigits (cs : List Char) : Nat :=
  cs.foldl (fun n c => 10 * n + (c.toNat - '0'.toNat)) 0

/-- The decimal digits of a number, without superfluous zeros. -/
def natDigits (n : Nat) : List Char := Nat.toDigits 10 n

/-- The decimal text of a number. -/
def natText (n : Nat) : String := String.ofList (natDigits n)

/-- The decimal text of an identifier. -/
def idText (id : UInt64) : String := natText id.toNat

/-- The decimal digits of a number, with zeros in front up to the given width. -/
def paddedDigits (width n : Nat) : List Char :=
  let digits := natDigits n
  List.replicate (width - digits.length) '0' ++ digits

/-- Why a text is not a 64-bit word. -/
inductive WordError where
  | empty
  | invalidDigit
  | tooLarge
deriving DecidableEq, Repr

/-- Reads digits on top of the number read so far. -/
def readDigits (radix : Nat) : Nat → List Char → Except WordError Nat
  | n, [] => .ok n
  | n, c :: cs =>
    match digitValue? radix c with
    | none => .error .invalidDigit
    | some d =>
      if radix * n + d < twoPow 64 then readDigits radix (radix * n + d) cs else .error .tooLarge

/-- Reads a word in the given radix: an optional plus sign and at least one digit. -/
def readWord (radix : Nat) : List Char → Except WordError UInt64
  | [] => .error .empty
  | ['+'] => .error .invalidDigit
  | '+' :: cs => (readDigits radix 0 cs).map UInt64.ofNat
  | cs => (readDigits radix 0 cs).map UInt64.ofNat

end RentalDesk.Text
