import Mathlib.Algebra.Order.Floor.Ring
import Mathlib.Data.Rat.Floor
import Mathlib.Tactic.FieldSimp
import Mathlib.Tactic.Linarith
import Mathlib.Tactic.Positivity
import Mathlib.Tactic.Push
import RentalDesk.Decimal.Basic

/-!
# The values of decimals

A decimal stands for a rational number. Bringing it to currency scale rounds this number to the
nearest cent, a half going away from zero, whatever its sign and its number of decimals are.
-/

namespace RentalDesk

theorem cast_tenPow (n : Nat) : ((tenPow n : Nat) : ℚ) = 10 ^ n := Nat.cast_pow 10 n

theorem cast_twoPow (n : Nat) : ((twoPow n : Nat) : ℚ) = 2 ^ n := Nat.cast_pow 2 n

/-- The nearest number of whole cents, a half going away from zero. -/
def toCents (x : ℚ) : ℚ :=
  if x < 0 then -(⌊100 * -x + 1 / 2⌋ / 100) else ⌊100 * x + 1 / 2⌋ / 100

theorem toCents_of_nonneg {x : ℚ} (h : 0 ≤ x) : toCents x = ⌊100 * x + 1 / 2⌋ / 100 :=
  if_neg (not_lt.2 h)

theorem toCents_neg (x : ℚ) : toCents (-x) = -toCents x := by
  rcases lt_trichotomy x 0 with neg | rfl | pos
  · rw [toCents_of_nonneg (neg_nonneg.2 neg.le), toCents, if_pos neg, neg_neg]
  · norm_num [toCents]
  · rw [toCents_of_nonneg pos.le, toCents, if_pos (neg_lt_zero.2 pos), neg_neg]

theorem toCents_nonneg {x : ℚ} (h : 0 ≤ x) : 0 ≤ toCents x := by
  have nonneg : 0 ≤ ⌊100 * x + 1 / 2⌋ := Int.floor_nonneg.2 (by positivity)
  rw [toCents_of_nonneg h]
  positivity

theorem toCents_mono : Monotone toCents := by
  have upward {x y : ℚ} (h : 0 ≤ x) (le : x ≤ y) : toCents x ≤ toCents y := by
    rw [toCents_of_nonneg h, toCents_of_nonneg (h.trans le)]
    gcongr
  intro x y le
  rcases le_total 0 x with hx | hx
  · exact upward hx le
  · rw [← neg_neg x, toCents_neg, neg_le]
    rcases le_total 0 y with hy | hy
    · exact (neg_nonpos.2 (toCents_nonneg hy)).trans (toCents_nonneg (neg_nonneg.2 hx))
    · rw [← toCents_neg]
      exact upward (neg_nonneg.2 hy) (neg_le_neg le)

/-- Whole cents stay as they are. -/
theorem toCents_natCast_div (n : Nat) : toCents (n / 100) = n / 100 := by
  have floor : ⌊100 * ((n : ℚ) / 100) + 1 / 2⌋ = (n : ℤ) := by
    rw [Int.floor_eq_iff, mul_div_cancel₀ _ (by norm_num)]
    constructor <;> push_cast <;> linarith
  rw [toCents_of_nonneg (by positivity), floor, Int.cast_natCast]

namespace Decimal

/-- The number that a decimal stands for. -/
def value (d : Decimal) : ℚ := d.signed / 10 ^ d.scale

variable {d : Decimal}

theorem value_of_positive (h : d.negative = false) : d.value = d.mantissa / 10 ^ d.scale := by
  rw [value, signed, if_neg (Bool.eq_false_iff.1 h), Int.cast_natCast]

theorem value_of_negative (h : d.negative = true) : d.value = -(d.mantissa / 10 ^ d.scale) := by
  rw [value, signed, if_pos h, Int.cast_neg, Int.cast_natCast, neg_div]

theorem value_eq_zero_iff : d.value = 0 ↔ d.mantissa = 0 := by
  have pos : (10 : ℚ) ^ d.scale ≠ 0 := by positivity
  cases h : d.negative with
  | false => simp [value_of_positive h]
  | true => simp [value_of_negative h]

/-- A number that is not negative has no sign, or is a negative zero. -/
theorem value_of_nonneg (h : 0 ≤ d.value) : d.value = d.mantissa / 10 ^ d.scale := by
  cases sign : d.negative with
  | false => exact value_of_positive sign
  | true =>
      have magnitude : (0 : ℚ) ≤ d.mantissa / 10 ^ d.scale := by positivity
      rw [value_of_negative sign] at h ⊢
      linarith

theorem negative_of_value_pos (h : 0 < d.value) : d.negative = false := by
  by_contra sign
  have magnitude : (0 : ℚ) ≤ d.mantissa / 10 ^ d.scale := by positivity
  rw [value_of_negative (Bool.eq_true_of_not_eq_false sign)] at h
  linarith

@[simp] theorem value_zero : zero.value = 0 := value_eq_zero_iff.2 rfl

@[simp] theorem value_plainZero (d : Decimal) : d.plainZero.value = d.value := by
  by_cases h : d.mantissa = 0
  · rw [value_eq_zero_iff.2 h, value_eq_zero_iff]
    exact h
  · have same : d.plainZero = d := by
      cases d
      simp_all [plainZero]
    rw [same]

/-! ## Currency scale -/

/-- Rounding a half up is taking the floor after a half was added. -/
theorem floor_eq_divHalfUp (n : Nat) {d : Nat} (hd : 0 < d) :
    ⌊(n : ℚ) / d + 1 / 2⌋ = (divHalfUp n d : ℤ) := by
  have hd' : (0 : ℚ) < d := Nat.cast_pos.2 hd
  have low : (divHalfUp n d : ℚ) * (2 * d) ≤ 2 * n + d := by
    exact_mod_cast Nat.div_mul_le_self (2 * n + d) (2 * d)
  have high : (2 * n + d : ℚ) < 2 * d * (divHalfUp n d + 1) := by
    exact_mod_cast Nat.lt_mul_div_succ (2 * n + d) (show 0 < 2 * d by omega)
  have half : (n : ℚ) / d + 1 / 2 = (2 * n + d) / (2 * d) := by field_simp
  rw [Int.floor_eq_iff, half, le_div_iff₀ (by positivity), div_lt_iff₀ (by positivity)]
  push_cast
  constructor <;> linarith

/-- Dropping decimals down to two rounds the magnitude to cents. -/
theorem toCents_magnitude {mantissa scale : Nat} (h : currencyScale ≤ scale) :
    toCents (mantissa / 10 ^ scale) =
      divHalfUp mantissa (tenPow (scale - currencyScale)) / 10 ^ currencyScale := by
  obtain ⟨dropped, rfl⟩ := Nat.exists_eq_add_of_le h
  have hundred : 100 * ((mantissa : ℚ) / 10 ^ (currencyScale + dropped)) =
      mantissa / (tenPow dropped : Nat) := by
    rw [cast_tenPow, pow_add]
    field_simp
    norm_num [currencyScale, mul_comm]
  rw [toCents_of_nonneg (by positivity), hundred, floor_eq_divHalfUp _ (tenPow_pos _),
    Nat.add_sub_cancel_left, Int.cast_natCast]
  norm_num [currencyScale]

/-- A number of at most two decimals in hundredths. -/
theorem natCast_hundredths (mantissa : ℕ) {scale : ℕ} (h : scale ≤ currencyScale) :
    ((mantissa * tenPow (currencyScale - scale) : ℕ) : ℚ) / 100 = mantissa / 10 ^ scale := by
  have hundred : (100 : ℚ) = 10 ^ scale * 10 ^ (currencyScale - scale) := by
    rw [← pow_add, Nat.add_sub_cancel' h]
    norm_num [currencyScale]
  rw [hundred, Nat.cast_mul, cast_tenPow]
  field_simp

theorem exists_cents_of_le (h : d.scale ≤ currencyScale) :
    ∃ n : ℕ, (d.mantissa : ℚ) / 10 ^ d.scale = n / 100 :=
  ⟨_, (natCast_hundredths d.mantissa h).symm⟩

/-- A decimal of at most two decimals is a number of whole cents. -/
theorem toCents_value_of_le (h : d.scale ≤ currencyScale) : toCents d.value = d.value := by
  obtain ⟨n, cents⟩ := exists_cents_of_le h
  cases sign : d.negative with
  | false => rw [value_of_positive sign, cents, toCents_natCast_div]
  | true => rw [value_of_negative sign, cents, toCents_neg, toCents_natCast_div]

theorem value_dropDecimals (h : currencyScale ≤ d.scale) :
    (d.dropDecimals (d.scale - currencyScale)).value = toCents d.value := by
  have scale : (d.dropDecimals (d.scale - currencyScale)).scale = currencyScale :=
    Nat.sub_sub_self h
  cases sign : d.negative with
  | false =>
      rw [value_of_positive sign, toCents_magnitude h, value_of_positive (by exact sign), scale]
      rfl
  | true =>
      rw [value_of_negative sign, toCents_neg, toCents_magnitude h,
        value_of_negative (by exact sign), scale]
      rfl

/-- Bringing a decimal to currency scale rounds its value to cents. -/
theorem value_rounded (d : Decimal) : d.rounded.value = toCents d.value := by
  rw [rounded]
  split
  · next short => rw [toCents_value_of_le short]
  · next long =>
      dsimp only
      split
      · exact value_dropDecimals (Nat.le_of_not_le long)
      · rw [value_plainZero, value_dropDecimals (Nat.le_of_not_le long)]

theorem scale_rounded_le (d : Decimal) : d.rounded.scale ≤ currencyScale := by
  have cut : d.scale - (d.scale - currencyScale) ≤ currencyScale := by omega
  rw [rounded]
  split
  · assumption
  · dsimp only
    split
    · exact cut
    · exact cut

end Decimal

end RentalDesk
