import RentalDesk.Decimal.Basic
import RentalDesk.Text.Digits

/-!
# The text of a decimal

The exact text of a decimal keeps its number of decimals; the displayed text of an amount has two
decimals, rounded away from zero at a half; the short text of a count of minutes has two decimals,
the others being cut off. Reading accepts a sign, a decimal point at any place, underscores after
the first digit, and an exponent of ten. Of the digits beyond the capacity of a decimal the first
one rounds the last digit that fits, and the others change nothing. A zero is read without its sign,
but an exponent that leaves no digit of a negative number leaves a negative zero.
-/

namespace RentalDesk.Decimal

open Text

/-- The digits of `mantissa / 10 ^ scale`, with a digit before the point and `scale` after it. -/
def positional (mantissa scale : Nat) : List Char :=
  let digits := paddedDigits (scale + 1) mantissa
  let whole := digits.take (digits.length - scale)
  if scale = 0 then whole else whole ++ '.' :: digits.drop (digits.length - scale)

/-- The minus sign of negative numbers. -/
def signText (negative : Bool) : List Char := if negative then ['-'] else []

def toText (d : Decimal) : String :=
  String.ofList (signText d.negative ++ positional d.mantissa d.scale)

instance : ToString Decimal := ⟨toText⟩

/-- The displayed text of an amount: rounded to currency scale, with exactly two decimals. -/
def display (d : Decimal) : String :=
  let r := d.rounded
  String.ofList
    (signText r.negative ++
      positional (r.mantissa * tenPow (currencyScale - r.scale)) currencyScale)

/-- Two decimals, the following ones cut off. -/
def truncatedText (d : Decimal) : String :=
  let cut := d.mantissa * tenPow (currencyScale - d.scale) / tenPow (d.scale - currencyScale)
  String.ofList (signText d.negative ++ positional cut currencyScale)

/-- Rounds at the first digit that does not fit. Only digits and underscores may be left. -/
def roundAt? (rest : List Char) (mantissa scale : Nat) : Option (Nat × Nat) :=
  let digits := rest.filter (· ≠ '_')
  if ¬ digits.all Char.isDigit then none
  else if natOfDigits (digits.take 1) < 5 then some (mantissa, scale)
  else if mantissa + 1 < bound then some (mantissa + 1, scale)
  else if scale = 0 then none
  else some ((mantissa + 5) / 10, scale - 1)

/-- Reads the digits behind the decimal point. `seen` tells whether a digit came before. -/
def readFraction? : List Char → Nat → Nat → Bool → Option (Nat × Nat)
  | [], mantissa, scale, seen => if seen then some (mantissa, scale) else none
  | c :: cs, mantissa, scale, seen =>
    if scale = maxScale then roundAt? (c :: cs) mantissa scale
    else
      match digitValue? 10 c with
      | some d =>
        if 10 * mantissa + d < bound then readFraction? cs (10 * mantissa + d) (scale + 1) true
        else roundAt? (c :: cs) mantissa scale
      | none => if c = '_' ∧ seen then readFraction? cs mantissa scale seen else none

/-- Reads the digits before the decimal point, which have to fit, and the fraction. -/
def readUnsigned? : List Char → Nat → Bool → Option (Nat × Nat)
  | [], mantissa, seen => if seen then some (mantissa, 0) else none
  | c :: cs, mantissa, seen =>
    match digitValue? 10 c with
    | some d =>
      if 10 * mantissa + d < bound then readUnsigned? cs (10 * mantissa + d) true else none
    | none =>
      if c = '.' then readFraction? cs mantissa 0 seen
      else if c = '_' ∧ seen then readUnsigned? cs mantissa seen
      else none

/-- Reads a number without an exponent. -/
def readPlain? (cs : List Char) : Option Decimal :=
  let (negative, unsigned) : Bool × List Char :=
    match cs with
    | '-' :: rest => (true, rest)
    | '+' :: rest => (false, rest)
    | _ => (false, cs)
  (readUnsigned? unsigned 0 false).bind fun (mantissa, scale) =>
    ofParts? negative mantissa scale

/-- Drops zeros at the end of the fraction. -/
def stripZeros : Nat → Nat → Nat × Nat
  | mantissa, 0 => (mantissa, 0)
  | mantissa, scale + 1 =>
    if mantissa % 10 = 0 then stripZeros (mantissa / 10) scale else (mantissa, scale + 1)

/-- The power of ten `10 ^ n`, for the exponents that a decimal can hold. -/
def tenPow? (n : Nat) : Option Decimal := if n ≤ maxScale then ofNat? (tenPow n) else none

/-- The decimal times a power of ten. Decimals are used up before zeros are added. -/
def scaleUp? (d : Decimal) (n : Nat) : Option Decimal :=
  if n ≤ d.scale then ofParts? d.negative d.mantissa (d.scale - n)
  else
    (tenPow? n).bind d.mul? |>.bind fun p =>
      let (mantissa, scale) := stripZeros p.mantissa p.scale
      ofParts? p.negative mantissa scale

/-- The decimal divided by a power of ten. Decimals are added as long as there is room for them,
and then the last decimals are dropped. -/
def scaleDown? (d : Decimal) (n : Nat) : Option Decimal :=
  if n ≤ maxScale then
    let kept := d.dropDecimals (d.scale + n - maxScale)
    signed? kept.negative kept.mantissa (kept.scale + n)
  else none

/-- Reads a number with an exponent: a plain number, an `e` of either case, and a whole number. -/
def readScientific? (cs : List Char) : Option Decimal :=
  let isMark : Char → Bool := fun c => c == 'e' || c == 'E'
  match cs.dropWhile (fun c => !isMark c) with
  | [] => none
  | _ :: exponent =>
    (readPlain? (cs.takeWhile fun c => !isMark c)).bind fun d =>
      match exponent with
      | '-' :: digits => (readWord 10 digits).toOption.bind fun n => d.scaleDown? n.toNat
      | digits => (readWord 10 digits).toOption.bind fun n => d.scaleUp? n.toNat

/-- Reads a decimal. An exponent is considered only if the text is no plain number. -/
def ofText? (s : String) : Option Decimal :=
  readPlain? s.toList <|> readScientific? s.toList

end RentalDesk.Decimal
