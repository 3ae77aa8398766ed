import RentalDesk.Proofs.Growth

/-!
# Charges that leave the range

A charge overflows where the exact product of the minutes and the rate, or the exact sum of the base
fee and the rounded product, rounds to a whole number beyond the range, and nowhere else: decimals
that do not fit are dropped, however many there are. Between any two instants of the calendar there
is a count of minutes, so with a base fee and a rate of at most ten quadrillions every rental can be
charged.
-/

namespace RentalDesk

namespace Instant

theorem leapBetween_swap (a b : Instant) : leapBetween b a = -leapBetween a b := by
  rw [leapBetween, leapBetween]
  split_ifs <;> omega

/-- The time from one instant to another is the time back, the other way round. -/
theorem nanosBetween_swap (a b : Instant) : nanosBetween b a = -nanosBetween a b := by
  rw [nanosBetween, nanosBetween, leapBetween_swap a b]
  ring

end Instant

namespace Tariff

open Decimal

variable {start start' stop stop' : Instant}

/-- The later the start, the shorter the time. -/
theorem elapsedMillis_anti (hstop : stop.Steady) (hstart : start.inLeapSecond = false)
    (hstart' : start'.inLeapSecond = false) (le : start ≤ start') :
    elapsedMillis start' stop ≤ elapsedMillis start stop := by
  have back := Instant.nanosBetween_le_nanosBetween hstop hstart hstart' le
  rw [Instant.nanosBetween_swap start stop, Instant.nanosBetween_swap start' stop,
    neg_le_neg_iff] at back
  exact Int.toNat_le_toNat (Int.tdiv_le_tdiv (by decide) back)

/-- There is a count of minutes for every time that the calendar has room for. -/
theorem minutesOfMillis?_elapsed (start stop : Instant) :
    minutesOfMillis? (elapsedMillis start stop) = some (elapsedMinutes start stop) := by
  obtain ⟨minutes, hminutes, -⟩ := exists_near_elapsed start stop
  rw [elapsedMillis, elapsedMinutes, hminutes, Option.getD_some]

theorem elapsedMinutes_mono (le : elapsedMillis start stop ≤ elapsedMillis start' stop') :
    (elapsedMinutes start stop).value ≤ (elapsedMinutes start' stop').value :=
  (fits_elapsedMinutes start stop).value_le (fits_elapsedMinutes start' stop') (by gcongr)

variable {tariff : Tariff} {base : Decimal}

/-- The exact product or the exact sum is half a unit below the end of the range, or beyond. -/
def Exceeds (tariff : Tariff) (base : Decimal) (start stop : Instant) : Prop :=
  2 ^ 96 - 1 / 2 ≤ (elapsedMinutes start stop).value * tariff.accrualRate.value ∨
    ∃ product, (elapsedMinutes start stop).mul? tariff.accrualRate = some product ∧
      2 ^ 96 - 1 / 2 ≤ base.value + product.value

section

variable (hbase : 0 ≤ base.value) (hrate : 0 ≤ tariff.accrualRate.value)

include hbase hrate

/-- What does not leave the range is charged. -/
theorem exists_accrued_iff : (∃ amount, tariff.accrued base start stop = .ok amount) ↔
    ¬ tariff.Exceeds base start stop := by
  have minutes := (fits_elapsedMinutes start stop).nonneg
  simp only [accrued_eq_ok_iff, Exceeds, not_or, ← mul?_eq_none_iff minutes hrate]
  constructor
  · rintro ⟨-, product, sum, hproduct, hsum, -⟩
    refine ⟨by simp [hproduct], ?_⟩
    rintro ⟨product', hproduct', beyond⟩
    obtain rfl := Option.some.inj (hproduct.symm.trans hproduct')
    have nonneg := (fits_mul? minutes hrate hproduct).nonneg
    rw [← add?_eq_none_iff hbase nonneg, hsum] at beyond
    cases beyond
  · rintro ⟨hproduct, within⟩
    obtain ⟨product, hproduct⟩ := Option.ne_none_iff_exists'.1 hproduct
    have nonneg := (fits_mul? minutes hrate hproduct).nonneg
    have hsum : base.add? product ≠ none := by
      rw [ne_eq, add?_eq_none_iff hbase nonneg]
      exact fun beyond => within ⟨product, hproduct, beyond⟩
    obtain ⟨sum, hsum⟩ := Option.ne_none_iff_exists'.1 hsum
    exact ⟨sum.rounded, product, sum, hproduct, hsum, rfl⟩

theorem accrued_eq_overflow_iff : tariff.accrued base start stop =
    .error (.amountOverflow base tariff.accrualRate start stop) ↔
      tariff.Exceeds base start stop := by
  rw [← not_iff_not, ← exists_accrued_iff hbase hrate]
  constructor
  · exact (accrued_eq_ok_or_overflow tariff base start stop).resolve_right
  · rintro ⟨amount, charged⟩ overflow
    cases charged.symm.trans overflow

end

end Tariff

/-! ## Moderate prices -/

/-- Not negative, and at most ten quadrillions. -/
structure Decimal.Moderate (d : Decimal) : Prop where
  nonneg : 0 ≤ d.value
  value_le : d.value ≤ 10 ^ 16

/-- Both prices are moderate. -/
structure Tariff.Moderate (tariff : Tariff) : Prop where
  baseFee : tariff.baseFee.Moderate
  accrualRate : tariff.accrualRate.Moderate

namespace Tariff

/-- At moderate prices the calendar is too short for a charge that leaves the range. -/
theorem Moderate.not_exceeds {tariff : Tariff} (h : tariff.Moderate) {base : Decimal}
    (hbase : base.Moderate) (start stop : Instant) : ¬ tariff.Exceeds base start stop := by
  have minutes := (fits_elapsedMinutes start stop).nonneg
  have few := (near_minutes start stop).2
  have product_le : (elapsedMinutes start stop).value * tariff.accrualRate.value ≤
      300000000000 * 10 ^ 16 :=
    mul_le_mul few h.accrualRate.value_le h.accrualRate.nonneg (by norm_num)
  rintro (beyond | ⟨product, hproduct, beyond⟩)
  · linarith
  · obtain ⟨product', hproduct', near⟩ := Decimal.exists_near_mul? 0 minutes h.accrualRate.nonneg
      (Nat.zero_le _) (by linarith)
    obtain rfl := Option.some.inj (hproduct.symm.trans hproduct')
    have error := abs_le.1 near.error_le
    have base_le := hbase.value_le
    linarith

theorem Moderate.exists_accrued {tariff : Tariff} (h : tariff.Moderate) {base : Decimal}
    (hbase : base.Moderate) (start stop : Instant) :
    ∃ amount, tariff.accrued base start stop = .ok amount :=
  (exists_accrued_iff hbase.nonneg h.accrualRate.nonneg).2 (h.not_exceeds hbase start stop)

end Tariff

end RentalDesk
