import RentalDesk.Proofs.Arithmetic.Minutes

/-!
# What accrues

The exact amount of a rental is the base fee and the product of the rate and the time, rounded once
to cents. What is charged is computed in four steps, each of which rounds: the minutes, the product,
the sum and the cents. With prices of ordinary size the first three are so fine that the last one
comes to the exact amount, except where this lies half way between two cents. There it is rounded up
if the count of minutes is not too low, and can be a cent less if it is.
-/

namespace RentalDesk

/-! ## Half cents -/

/-- The number lies half way between two cents. -/
def IsHalfCent (x : ℚ) : Prop := ∃ n : ℤ, 100 * x = n + 1 / 2

variable {x y : ℚ}

theorem toCents_of_isHalfCent {n : ℤ} (hn : 100 * x = n + 1 / 2) (nonneg : 0 ≤ x) :
    toCents x = (n + 1) / 100 := by
  have floor : ⌊100 * x + 1 / 2⌋ = n + 1 := by
    rw [Int.floor_eq_iff, hn]
    push_cast
    constructor <;> linarith
  rw [toCents_of_nonneg nonneg, floor, Int.cast_add, Int.cast_one]

/-- What is a little more than a half cent is rounded up with it. -/
theorem toCents_eq_of_halfCent_le (half : IsHalfCent x) (nonneg : 0 ≤ x) (le : x ≤ y)
    (near : y - x < 1 / 100) : toCents y = toCents x := by
  obtain ⟨n, hn⟩ := half
  have floor : ⌊100 * y + 1 / 2⌋ = n + 1 := by
    rw [Int.floor_eq_iff]
    push_cast
    constructor <;> linarith
  rw [toCents_of_isHalfCent hn nonneg, toCents_of_nonneg (nonneg.trans le), floor, Int.cast_add,
    Int.cast_one]

/-- What is a little less than a half cent is rounded down. -/
theorem toCents_eq_of_lt_halfCent (half : IsHalfCent x) (nonneg : 0 ≤ y) (lt : y < x)
    (near : x - y < 1 / 100) : toCents y = toCents x - 1 / 100 := by
  obtain ⟨n, hn⟩ := half
  have floor : ⌊100 * y + 1 / 2⌋ = n := by
    rw [Int.floor_eq_iff]
    constructor <;> linarith
  rw [toCents_of_isHalfCent hn (nonneg.trans lt.le), toCents_of_nonneg nonneg, floor]
  ring

/-- A number of which six million make a whole is rounded with all that is nearer to it than that,
unless it is a half cent. -/
theorem toCents_eq_of_abs_sub_lt {parts : ℕ} (grid : 6000000 * x = parts) (half : ¬ IsHalfCent x)
    (nonneg : 0 ≤ y) (near : |y - x| < 1 / 6000000) : toCents y = toCents x := by
  obtain ⟨below, above⟩ := abs_lt.1 near
  have nonneg' : 0 ≤ x := by
    have : (0 : ℚ) ≤ parts := parts.cast_nonneg
    linarith
  obtain ⟨cents, hcents⟩ : ∃ cents, ⌊100 * x + 1 / 2⌋ = cents := ⟨_, rfl⟩
  obtain ⟨low, high⟩ := Int.floor_eq_iff.1 hcents
  -- In units of a sixty-thousandth of a cent the number and the half cents are integers.
  have units : 60000 * cents ≤ parts + 30000 ∧ (parts + 30000 : ℤ) < 60000 * (cents + 1) := by
    have lowUnits : (60000 * cents : ℚ) ≤ parts + 30000 := by linarith
    have highUnits : (parts + 30000 : ℚ) < 60000 * (cents + 1) := by linarith
    exact ⟨by exact_mod_cast lowUnits, by exact_mod_cast highUnits⟩
  have apart : 60000 * cents ≠ parts + 30000 := by
    intro equal
    have equal' : (60000 * cents : ℚ) = parts + 30000 := by exact_mod_cast equal
    refine half ⟨cents - 1, ?_⟩
    push_cast
    linarith
  have clear : (60000 * cents + 1 : ℚ) ≤ parts + 30000 := by
    exact_mod_cast Int.add_one_le_of_lt (lt_of_le_of_ne units.1 apart)
  have clear' : (parts + 30000 + 1 : ℚ) ≤ 60000 * (cents + 1) := by
    exact_mod_cast Int.add_one_le_of_lt units.2
  have floor : ⌊100 * y + 1 / 2⌋ = cents := by
    rw [Int.floor_eq_iff]
    constructor <;> linarith
  rw [toCents_of_nonneg nonneg, toCents_of_nonneg nonneg', hcents, floor]

/-! ## Prices of ordinary size -/

/-- A price of whole cents that is not negative and not above a billion. -/
structure Decimal.IsPrice (d : Decimal) : Prop where
  nonneg : 0 ≤ d.value
  scale_le : d.scale ≤ Decimal.currencyScale
  value_le : d.value ≤ 1000000000

theorem Decimal.IsPrice.exists_cents {d : Decimal} (h : d.IsPrice) :
    ∃ n : ℕ, d.value = n / 100 := by
  rw [d.value_of_nonneg h.nonneg]
  exact exists_cents_of_le h.scale_le

namespace Tariff

open Decimal

variable {tariff : Tariff} {base : Decimal}

/-- The whole milliseconds from `start` to `stop`, none if `stop` is not later. -/
def elapsedMillis (start stop : Instant) : Nat := (Instant.millisBetween start stop).toNat

/-- What a rental comes to before it is rounded. -/
def owed (tariff : Tariff) (base : Decimal) (start stop : Instant) : ℚ :=
  base.value + tariff.accrualRate.value * elapsedMillis start stop / 60000

/-- The minutes are counted to seventeen decimals, and there are at most 300,000,000,000 of them. -/
theorem near_minutes (start stop : Instant) :
    (elapsedMinutes start stop).Near 17 (elapsedMillis start stop / 60000) ∧
      (elapsedMinutes start stop).value ≤ 300000000000 := by
  have near : (elapsedMinutes start stop).Near 17 (elapsedMillis start stop / 60000) :=
    near_elapsedMinutes start stop
  have few : (elapsedMillis start stop : ℚ) ≤ 17000000000000000 := by
    exact_mod_cast Int.toNat_le.2 (Instant.millisBetween_le start stop)
  have error := abs_le.1 near.error_le
  exact ⟨near, by linarith⟩

section

variable (hbase : base.IsPrice) (hrate : tariff.accrualRate.IsPrice) (start stop : Instant)

include hbase hrate

/-- Six million parts of the exact amount make a whole number. -/
theorem owed_parts : ∃ parts : ℕ, 6000000 * tariff.owed base start stop = parts := by
  obtain ⟨cents, hcents⟩ := hbase.exists_cents
  obtain ⟨rate, hrate'⟩ := hrate.exists_cents
  refine ⟨60000 * cents + rate * elapsedMillis start stop, ?_⟩
  rw [owed, hcents, hrate']
  push_cast
  ring

/-- With prices of ordinary size the product and the sum are there, and keep eight decimals. -/
theorem exists_near_sum : ∃ product sum,
    (elapsedMinutes start stop).mul? tariff.accrualRate = some product ∧
      base.add? product = some sum ∧
      product.Near 8 ((elapsedMinutes start stop).value * tariff.accrualRate.value) ∧
      sum.Near 8 (base.value + product.value) := by
  obtain ⟨near, few⟩ := near_minutes start stop
  have bounded : (elapsedMinutes start stop).value * tariff.accrualRate.value ≤
      300000000000 * 1000000000 :=
    mul_le_mul few hrate.value_le hrate.nonneg (by norm_num)
  obtain ⟨product, hproduct, nearProduct⟩ := exists_near_mul? 8 near.nonneg hrate.nonneg
    (by decide) (by linarith)
  have error := abs_le.1 nearProduct.error_le
  obtain ⟨sum, hsum, nearSum⟩ := exists_near_add? 8 hbase.nonneg nearProduct.nonneg (by decide)
    (by linarith [hbase.value_le])
  exact ⟨product, sum, hproduct, hsum, nearProduct, nearSum⟩

section

variable {start stop} {product sum : Decimal}
  (nearProduct : product.Near 8 ((elapsedMinutes start stop).value * tariff.accrualRate.value))
  (nearSum : sum.Near 8 (base.value + product.value))

include nearProduct nearSum

omit hbase in
/-- The errors of the three steps add up to little. -/
theorem abs_sum_sub_owed_lt : |sum.value - tariff.owed base start stop| < 1 / 6000000 := by
  have near := (near_minutes start stop).1
  rw [owed]
  generalize elapsedMinutes start stop = minutes at near nearProduct
  generalize elapsedMillis start stop = millis at near
  -- The error of the minutes is multiplied by the rate.
  have scaled : |tariff.accrualRate.value * (minutes.value - millis / 60000)| ≤
      1000000000 * (1 / (2 * 10 ^ 17)) := by
    rw [abs_mul, abs_of_nonneg hrate.nonneg]
    exact mul_le_mul hrate.value_le near.error_le (abs_nonneg _) (by norm_num)
  have minutesError := abs_le.1 scaled
  have productError := abs_le.1 nearProduct.error_le
  have sumError := abs_le.1 nearSum.error_le
  rw [abs_lt]
  constructor <;> linarith

/-- What is owed for the time is a whole number of half cents if a half cent is owed in all, so that
a product of no fewer minutes is not rounded below it. -/
theorem owed_le_sum (mod : elapsedMillis start stop % 3 ≠ 2)
    (half : IsHalfCent (tariff.owed base start stop)) :
    tariff.owed base start stop ≤ sum.value := by
  have near := (near_minutes start stop).1
  rw [owed] at half ⊢
  generalize elapsedMinutes start stop = minutes at near nearProduct
  generalize elapsedMillis start stop = millis at near mod half ⊢
  obtain ⟨cents, hcents⟩ := hbase.exists_cents
  obtain ⟨n, hn⟩ := half
  have extra : 0 ≤ tariff.accrualRate.value * millis / 60000 :=
    div_nonneg (mul_nonneg hrate.nonneg (Nat.cast_nonneg _)) (by norm_num)
  have halves : ((2 * n + 1 - 2 * cents : ℤ) : ℚ) =
      200 * (tariff.accrualRate.value * millis / 60000) := by
    push_cast
    linarith
  have positive : 0 ≤ 2 * n + 1 - 2 * (cents : ℤ) := by
    rw [← Int.cast_nonneg_iff (R := ℚ), halves]
    linarith
  obtain ⟨k, hk⟩ := Int.eq_ofNat_of_zero_le positive
  rw [hk, Int.cast_natCast] at halves
  have low := mul_le_mul_of_nonneg_right (le_value_of_mod_three (by decide) near mod) hrate.nonneg
  have product_ge := nearProduct.le_value (n := k * 500000) (by push_cast; linarith)
  have sum_ge := nearSum.le_value (n := (k + 2 * cents) * 500000) (by
    push_cast at product_ge ⊢
    linarith)
  push_cast at sum_ge
  linarith

end

/-- With prices of ordinary size the charge is the exact amount rounded once to cents, except that
it can be a cent less where the exact amount lies half way between two cents and the milliseconds
leave a remainder of two when they are divided by three. -/
theorem accrued_rounds_once : ∃ amount, tariff.accrued base start stop = .ok amount ∧
    amount.scale ≤ currencyScale ∧
    (elapsedMillis start stop % 3 ≠ 2 ∨ ¬ IsHalfCent (tariff.owed base start stop) →
      amount.value = toCents (tariff.owed base start stop)) ∧
    (amount.value = toCents (tariff.owed base start stop) ∨
      amount.value = toCents (tariff.owed base start stop) - 1 / 100) := by
  obtain ⟨product, sum, hproduct, hsum, nearProduct, nearSum⟩ :=
    exists_near_sum hbase hrate start stop
  have near := abs_sum_sub_owed_lt hrate nearProduct nearSum
  have nonneg := nearSum.nonneg
  refine ⟨sum.rounded, ?_, sum.scale_rounded_le, ?_⟩
  · rw [accrued, hproduct, Option.bind_some, hsum]
  rw [value_rounded]
  obtain ⟨parts, hparts⟩ := owed_parts hbase hrate start stop
  have nonneg' : 0 ≤ tariff.owed base start stop := by
    have : (0 : ℚ) ≤ parts := parts.cast_nonneg
    linarith
  obtain ⟨errorLow, errorHigh⟩ := abs_lt.1 near
  by_cases half : IsHalfCent (tariff.owed base start stop)
  · rcases le_or_gt (tariff.owed base start stop) sum.value with le | lt
    · have up := toCents_eq_of_halfCent_le half nonneg' le (by linarith)
      exact ⟨fun _ => up, .inl up⟩
    · have down := toCents_eq_of_lt_halfCent half nonneg lt (by linarith)
      refine ⟨fun exact => ?_, .inr down⟩
      rcases exact with mod | whole
      · exact absurd (owed_le_sum hbase hrate nearProduct nearSum mod half) (not_le.2 lt)
      · exact absurd half whole
  · have same := toCents_eq_of_abs_sub_lt hparts half nonneg near
    exact ⟨fun _ => same, .inl same⟩

end

/-- A rental for 1.00 and 3.00 for a minute, so that a tenth of a second comes to half a cent. -/
def threefold : Tariff where
  baseFee := (ofParts? false 100 2).getD .zero
  accrualRate := (ofParts? false 300 2).getD .zero

theorem value_threefold : threefold.baseFee.value = 1 ∧ threefold.accrualRate.value = 3 := by
  have base : threefold.baseFee = ⟨false, 100, 2, by decide, by decide⟩ := by decide +kernel
  have rate : threefold.accrualRate = ⟨false, 300, 2, by decide, by decide⟩ := by decide +kernel
  constructor
  · norm_num [base, value, signed]
  · norm_num [rate, value, signed]

theorem isPrice_threefold : threefold.baseFee.IsPrice ∧ threefold.accrualRate.IsPrice := by
  obtain ⟨base, rate⟩ := value_threefold
  exact ⟨⟨by norm_num [base], by decide +kernel, by norm_num [base]⟩,
    ⟨by norm_num [rate], by decide +kernel, by norm_num [rate]⟩⟩

/-- So many milliseconds after the start of 1970. -/
def afterMillis (millis : Nat) : Instant := (Instant.ofMillis? millis 0).getD .epoch

/-- After a tenth of a second half a cent is owed for the time, and is rounded up. -/
theorem accrued_rounds_once_tenth :
    elapsedMillis .epoch (afterMillis 100) % 3 ≠ 2 ∧
    ∃ amount, threefold.accrued threefold.baseFee .epoch (afterMillis 100) = .ok amount ∧
      amount.value = toCents (threefold.owed threefold.baseFee .epoch (afterMillis 100)) := by
  have mod : elapsedMillis .epoch (afterMillis 100) % 3 ≠ 2 := by decide +kernel
  obtain ⟨amount, charged, -, once, -⟩ :=
    accrued_rounds_once isPrice_threefold.1 isPrice_threefold.2 .epoch (afterMillis 100)
  exact ⟨mod, amount, charged, once (.inl mod)⟩

/-- After half a second two and a half cents are owed for the time, and only two are charged. -/
theorem not_accrued_rounds_once : threefold.baseFee.IsPrice ∧ threefold.accrualRate.IsPrice ∧
    ∃ amount, threefold.accrued threefold.baseFee .epoch (afterMillis 500) = .ok amount ∧
      amount.value = 102 / 100 ∧
      toCents (threefold.owed threefold.baseFee .epoch (afterMillis 500)) = 103 / 100 := by
  refine ⟨isPrice_threefold.1, isPrice_threefold.2, ⟨false, 102, 2, by decide, by decide⟩,
    by decide +kernel, by norm_num [value, signed], ?_⟩
  have millis : elapsedMillis .epoch (afterMillis 500) = 500 := by decide +kernel
  obtain ⟨base, rate⟩ := value_threefold
  rw [owed, millis, base, rate]
  norm_num [toCents]

end Tariff

end RentalDesk
