import RentalDesk.Powers
import RentalDesk.Text.Digits

/-!
# Binary floating point

Non-negative finite numbers of the 64-bit binary format: a mantissa of at most 53 bits times a power
of two from `2 ^ -1074` on. Quotients of natural numbers are rounded to the nearest such number, a
half going to the even mantissa, and numbers are written with the fewest decimal digits that are
rounded back to them. All steps are exact calculations with natural numbers.
-/

namespace RentalDesk

/-- The number `mantissa * 2 ^ exponent`. -/
structure Binary64 where
  mantissa : Nat
  exponent : Int
deriving DecidableEq, Repr

namespace Binary64

abbrev minExponent : Int := -1074

/-- The numerator and the denominator of `n / d * 2 ^ p`. -/
def shifted (n d : Nat) (p : Int) : Nat × Nat :=
  if 0 ≤ p then (n * twoPow p.toNat, d) else (n, d * twoPow p.natAbs)

/-- The nearest integer, a half going to the even neighbour. -/
def roundEven (n d : Nat) : Nat :=
  let q := n / d
  let r := n % d
  if 2 * r < d then q
  else if d < 2 * r then q + 1
  else q + q % 2

/-- The number nearest to `n / d`, unless it is beyond the greatest finite one. -/
def nearest? (n d : Nat) : Option Binary64 :=
  if n = 0 then some ⟨0, 0⟩
  else
    let coarse := max minExponent ((Nat.log2 n : Int) - Nat.log2 d - 53)
    let (num, den) := shifted n d (-coarse)
    let exponent := if twoPow 53 ≤ num / den then coarse + 1 else coarse
    let (num, den) := shifted n d (-exponent)
    let rounded := roundEven num den
    let (mantissa, exponent) : Nat × Int :=
      if rounded = twoPow 53 then (twoPow 52, exponent + 1) else (rounded, exponent)
    let (whole, part) := shifted mantissa 1 exponent
    if part * twoPow 1024 ≤ whole then none else some ⟨mantissa, exponent⟩

/-- The numerator and the denominator of a number. -/
def fraction (x : Binary64) : Nat × Nat := shifted x.mantissa 1 x.exponent

/-- The number nearest to the product. -/
def mul? (x y : Binary64) : Option Binary64 :=
  nearest? (x.fraction.1 * y.fraction.1) (x.fraction.2 * y.fraction.2)

/-- The number nearest to the quotient. -/
def div? (x y : Binary64) : Option Binary64 :=
  nearest? (x.fraction.1 * y.fraction.2) (x.fraction.2 * y.fraction.1)

/-- The greatest exponent of a power of ten among the numbers. -/
abbrev maxTenExponent : Nat := 308

def tenPow? (n : Nat) : Option Binary64 := nearest? (tenPow n) 1

/-- Divides by a power of ten, in steps of the greatest power of ten while the exponent is beyond
it and something is left to divide. -/
def divTenPow? : Nat → Binary64 → Nat → Option Binary64
  | 0, _, _ => none
  | steps + 1, x, n =>
    if n ≤ maxTenExponent then (tenPow? n).bind x.div?
    else if x.mantissa = 0 then some x
    else
      ((tenPow? maxTenExponent).bind x.div?).bind fun y =>
        divTenPow? steps y (n - maxTenExponent)

/-- The number that a significand and a power of ten are read as: the nearest number to the
significand is multiplied or divided by the nearest number to the power, so that the result can be
a neighbour of the nearest one. -/
def ofScientific? (significand : Nat) (exponent : Int) : Option Binary64 :=
  (nearest? significand 1).bind fun x =>
    if exponent < 0 then divTenPow? (exponent.natAbs + 1) x exponent.natAbs
    else if exponent.toNat ≤ maxTenExponent then (tenPow? exponent.toNat).bind x.mul?
    else if x.mantissa = 0 then some x
    else none

/-- The order of `a * 10 ^ e` and `b * 2 ^ p`. -/
def compareScaled (a : Nat) (e : Int) (b : Nat) (p : Int) : Ordering :=
  let (n, d) := shifted b 1 p
  if 0 ≤ e then compare (a * tenPow e.toNat * d) n else compare (a * d) (n * tenPow e.natAbs)

/-- Whether `digits * 10 ^ e` is rounded to the number. The ends of the interval belong to it if
the mantissa is even, and below a power of two the neighbours are closer. -/
def readsBack (x : Binary64) (digits : Nat) (e : Int) : Bool :=
  let below :=
    if x.mantissa = twoPow 52 ∧ minExponent < x.exponent then 4 * x.mantissa - 1
    else 4 * x.mantissa - 2
  let low := compareScaled digits e below (x.exponent - 2)
  let high := compareScaled digits e (4 * x.mantissa + 2) (x.exponent - 2)
  if x.mantissa % 2 = 0 then low != .lt && high != .gt else low == .gt && high == .lt

/-- The exponent of the first decimal digit of `n / d`. -/
def leadingExponent (n d : Nat) : Int :=
  if d ≤ n then ((Text.natDigits (n / d)).length : Int) - 1
  else
    let places := (Text.natDigits (d / n)).length
    if d ≤ n * tenPow (places - 1) then 1 - (places : Int) else -(places : Int)

/-- The fewest digits, and their power of ten, that are rounded back to the number. Of two such
neighbours the nearer one is taken, and the upper one if they are equally near. The search begins
at the power of ten above the number, which can be the only number with one digit. -/
def shortest (x : Binary64) : Nat × Int :=
  if x.mantissa = 0 then (0, 0)
  else
    let (n, d) := x.fraction
    let leading := leadingExponent n d
    let found? := (List.range 18).findSome? fun (more : Nat) =>
      let e : Int := leading + 1 - (more : Int)
      let (num, den) : Nat × Nat :=
        if 0 ≤ e then (n, d * tenPow e.toNat) else (n * tenPow e.natAbs, d)
      let low := num / den
      let highIsNearer := den ≤ 2 * (num % den)
      match x.readsBack low e, x.readsBack (low + 1) e with
      | true, true => some (if highIsNearer then (low + 1, e) else (low, e))
      | true, false => some (low, e)
      | false, true => some (low + 1, e)
      | false, false => none
    found?.getD (0, 0)

def positional (x : Binary64) : List Char :=
  let (digits, e) := x.shortest
  if 0 ≤ e then Text.natDigits (digits * tenPow e.toNat)
  else
    let places := e.natAbs
    let text := Text.paddedDigits (places + 1) digits
    text.take (text.length - places) ++ '.' :: text.drop (text.length - places)

end Binary64

end RentalDesk
