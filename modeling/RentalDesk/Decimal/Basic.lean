import RentalDesk.Powers

/-!
# Decimals

A decimal is a sign, a mantissa below `2 ^ 96` and a count of decimals of at most 28. Amounts of
money, accrual rates and counts of minutes are decimals. Two decimals of one value can differ in
their number of decimals, so `10` and `10.00` are different rows of a ledger although they compare
as equal.

The product and the sum of two decimals are computed exactly and then cut back to the fewest
dropped digits that let the result fit, a half going to the even neighbour.
-/

namespace RentalDesk

/-- The number `± mantissa / 10 ^ scale`. The invariants are the limits of the format. A zero can
be negative: rounding keeps the sign of a number that it rounds to zero in a few places, each of
which says so. -/
structure Decimal where
  negative : Bool
  mantissa : Nat
  scale : Nat
  mantissa_lt : mantissa < twoPow 96
  scale_le : scale ≤ 28
deriving DecidableEq

namespace Decimal

/-- Mantissas stay below this bound. -/
abbrev bound : Nat := twoPow 96

/-- The greatest number of decimals. -/
abbrev maxScale : Nat := 28

/-- The decimal with these parts, if they are within the limits. Its sign is kept even if the
mantissa is zero. -/
def signed? (negative : Bool) (mantissa scale : Nat) : Option Decimal :=
  if h : mantissa < bound ∧ scale ≤ 28 then some ⟨negative, mantissa, scale, h.1, h.2⟩ else none

/-- The decimal with these parts, if they are within the limits. A zero is not negative. -/
def ofParts? (negative : Bool) (mantissa scale : Nat) : Option Decimal :=
  signed? (negative && mantissa != 0) mantissa scale

/-- The natural number `n` without decimals, if it fits. -/
def ofNat? (n : Nat) : Option Decimal := ofParts? false n 0

/-- The integer `n` without decimals, if it fits. -/
def ofInt? (n : Int) : Option Decimal := ofParts? (n < 0) n.natAbs 0

/-- Zero without decimals. -/
def zero : Decimal := ⟨false, 0, 0, by decide, by decide⟩

instance : Inhabited Decimal := ⟨zero⟩

def signed (d : Decimal) : Int := if d.negative then -(d.mantissa : Int) else d.mantissa

/-- `n / d` rounded to the nearest integer, a half going up. -/
def divHalfUp (n d : Nat) : Nat := (2 * n + d) / (2 * d)

/-- `n / d` rounded to the nearest integer, a half going to the even neighbour. -/
def divHalfEven (n d : Nat) : Nat :=
  let q := n / d
  let r := n % d
  if 2 * r < d then q
  else if d < 2 * r then q + 1
  else q + q % 2

/-- The decimal nearest to `mantissa / 10 ^ scale` that fits after the fewest dropped digits:
at least those beyond the twenty-eighth decimal, and as many more as the bound on the mantissa
asks for. There is none if digits before the decimal point would have to go. The sign stays if all
digits are dropped. -/
def fit? (negative : Bool) (mantissa scale : Nat) : Option Decimal :=
  (List.range (scale + 1)).findSome? fun dropped =>
    if scale ≤ maxScale + dropped then
      signed? negative (divHalfEven mantissa (tenPow dropped)) (scale - dropped)
    else
      none

/-- The decimal without the sign of a negative zero. -/
def plainZero (d : Decimal) : Decimal := { d with negative := d.negative && d.mantissa != 0 }

/-- Whether the mantissa fits into a machine word of 32 bits. -/
def isShort (d : Decimal) : Bool := d.mantissa < twoPow 32

/-- The product; a zero factor gives the zero without decimals. A negative product that is rounded
to zero stays negative, except that the product of two short factors does not. -/
def mul? (a b : Decimal) : Option Decimal :=
  if a.mantissa = 0 ∨ b.mantissa = 0 then some zero
  else
    let product? :=
      fit? (a.negative != b.negative) (a.mantissa * b.mantissa) (a.scale + b.scale)
    if a.isShort ∧ b.isShort then product?.map plainZero else product?

/-- The signed mantissa of `d` when it is written with `scale` decimals, at least its own. -/
def units (d : Decimal) (scale : Nat) : Int := d.signed * (tenPow (scale - d.scale) : Nat)

/-- The sum; a zero term leaves the other one as it is. -/
def add? (a b : Decimal) : Option Decimal :=
  if a.mantissa = 0 then some b
  else if b.mantissa = 0 then some a
  else
    let scale := max a.scale b.scale
    let sum := a.units scale + b.units scale
    fit? (sum < 0) sum.natAbs scale

/-- The order of the values, whatever their numbers of decimals. -/
def compareValue (a b : Decimal) : Ordering :=
  let scale := max a.scale b.scale
  compare (a.units scale) (b.units scale)

/-- Money has two decimals. -/
abbrev currencyScale : Nat := 2

theorem divHalfUp_le (n : Nat) {d : Nat} (hd : 0 < d) : divHalfUp n d ≤ n := by
  unfold divHalfUp
  rw [← Nat.lt_succ_iff, Nat.div_lt_iff_lt_mul (by omega)]
  have h : n * (2 * 1) ≤ n * (2 * d) := Nat.mul_le_mul_left n (by omega)
  have hs : n.succ * (2 * d) = n * (2 * d) + 2 * d := Nat.succ_mul n (2 * d)
  omega

/-- The decimal with fewer decimals: so many are dropped, the last one that stays being rounded, a
half going away from zero. The sign stays. -/
def dropDecimals (d : Decimal) (dropped : Nat) : Decimal where
  negative := d.negative
  mantissa := divHalfUp d.mantissa (tenPow dropped)
  scale := d.scale - dropped
  mantissa_lt := Nat.lt_of_le_of_lt (divHalfUp_le _ (tenPow_pos _)) d.mantissa_lt
  scale_le := Nat.le_trans (Nat.sub_le ..) d.scale_le

/-- The value at currency scale: at most two decimals stay as they are, more are rounded to two,
a half going away from zero. A zero keeps its sign, but what is rounded to zero is not negative. -/
def rounded (d : Decimal) : Decimal :=
  if d.scale ≤ currencyScale then d
  else
    let cut := d.dropDecimals (d.scale - currencyScale)
    if d.mantissa = 0 then cut else cut.plainZero

end Decimal

end RentalDesk
