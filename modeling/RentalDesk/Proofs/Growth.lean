import RentalDesk.Proofs.Accrual
import RentalDesk.Proofs.Arithmetic.Fitting

/-!
# What accrues does not shrink

A rental that is open for more milliseconds never costs less, whatever the base fee and the rate
are: the minutes, the product and the sum are each rounded to as many decimals as fit, and this
keeps the order of numbers. For the same reason a rental costs no less than its base fee, and costs
just that at the start. Later instants are further away than earlier ones in milliseconds, unless a
leap second is involved: the second that it adds to a distance depends on the times of day, so that
it is counted until midnight and not any more afterwards.
-/

namespace RentalDesk

/-! ## Distances in time -/

namespace Instant

/-- The distances from the instant are counted alike for all times of day: it lies in no leap
second, or in one that ends a day. -/
def Steady (i : Instant) : Prop := i.inLeapSecond = false ∨ i.timeOfDay = 86399

variable {start a b : Instant}

theorem nano_lt_of_not_leap (h : a.inLeapSecond = false) : a.nano < nanosPerSecond :=
  Nat.lt_of_not_le (of_decide_eq_false h)

theorem leapBetween_eq_zero (hstart : start.Steady) (ha : a.inLeapSecond = false) :
    leapBetween start a = 0 := by
  have last : a.timeOfDay < 86400 := Int.emod_lt_of_pos _ (by decide)
  rw [leapBetween]
  split
  · rcases hstart with normal | last'
    · rw [normal, if_neg Bool.false_ne_true]
    · omega
  · split
    · rw [ha, if_neg Bool.false_ne_true]
    · rfl

theorem nanosBetween_le_nanosBetween (hstart : start.Steady) (ha : a.inLeapSecond = false)
    (hb : b.inLeapSecond = false) (le : a ≤ b) : nanosBetween start a ≤ nanosBetween start b := by
  have below := nano_lt_of_not_leap ha
  rw [nanosBetween, nanosBetween, leapBetween_eq_zero hstart ha, leapBetween_eq_zero hstart hb]
  simp only [nanosPerSecond] at below ⊢
  rcases (le : _ ∨ _ ∧ _) with earlier | ⟨same, nanos⟩ <;> omega

theorem nanosBetween_nonpos (hstart : start.Steady) (ha : a.inLeapSecond = false)
    (le : a ≤ start) : nanosBetween start a ≤ 0 := by
  have below := nano_lt_of_not_leap ha
  rw [nanosBetween, leapBetween_eq_zero hstart ha]
  simp only [nanosPerSecond] at below ⊢
  rcases (le : _ ∨ _ ∧ _) with earlier | ⟨same, nanos⟩ <;> omega

end Instant

namespace Tariff

open Decimal

variable {start start' stop stop' : Instant}

theorem elapsedMillis_mono (hstart : start.Steady) (hstop : stop.inLeapSecond = false)
    (hstop' : stop'.inLeapSecond = false) (le : stop ≤ stop') :
    elapsedMillis start stop ≤ elapsedMillis start stop' :=
  Int.toNat_le_toNat (Int.tdiv_le_tdiv (by decide)
    (Instant.nanosBetween_le_nanosBetween hstart hstop hstop' le))

theorem elapsedMillis_eq_zero (hstart : start.Steady) (hstop : stop.inLeapSecond = false)
    (le : stop ≤ start) : elapsedMillis start stop = 0 := by
  have nonpos : Instant.millisBetween start stop ≤ Int.tdiv 0 1000000 :=
    Int.tdiv_le_tdiv (by decide) (Instant.nanosBetween_nonpos hstart hstop le)
  exact Int.toNat_eq_zero.2 nonpos

/-! ## Minutes -/

theorem value_of_ofParts? {mantissa scale : ℕ} {d : Decimal}
    (h : ofParts? false mantissa scale = some d) : d.value = mantissa / 10 ^ scale := by
  obtain ⟨positive, hmantissa, hscale⟩ := of_signed?_eq_some h
  rw [value_of_positive positive, hmantissa, hscale]

/-- A count of minutes that does not end has as many decimals as fit. -/
theorem fits_unending {millis : ℕ} {d : Decimal}
    (h : ((List.range (maxScale + 1)).findSome? fun dropped =>
      ofParts? false (divHalfEven (millis * tenPow (maxScale - dropped)) millisPerMinute)
        (maxScale - dropped)) = some d) : d.Fits (millis / 60000) := by
  have grid (k : ℕ) : Nearest (divHalfEven (millis * tenPow k) millisPerMinute)
      (millis / 60000 * 10 ^ k) := by
    have units : ((millis * tenPow k : ℕ) : ℚ) / (millisPerMinute : ℕ) =
        millis / 60000 * 10 ^ k := by
      rw [Nat.cast_mul, cast_tenPow]
      push_cast
      ring
    rw [← units]
    exact nearest_divHalfEven _ (by decide)
  obtain ⟨dropped, hdropped, found, before⟩ := of_findSome?_range h
  obtain ⟨positive, hmantissa, hscale⟩ := of_signed?_eq_some found
  refine ⟨?_, ?_, ?_⟩
  · rw [value_of_positive positive]
    positivity
  · rw [hmantissa, hscale]
    exact grid _
  · cases dropped with
    | zero => exact .inr (.inl hscale)
    | succ dropped =>
        have none := before dropped (Nat.lt_succ_self dropped)
        rw [ofParts?, signed?_eq_none_iff, not_and_or, Nat.not_lt] at none
        have past := none.resolve_right (not_not.2 (Nat.sub_le ..))
        rw [(grid _).le_iff bound_mod_two, cast_bound] at past
        rw [hscale, show maxScale - (dropped + 1) + 1 = maxScale - dropped by omega]
        exact .inr (.inr past)

/-- Minutes are counted to as many decimals as fit. -/
theorem fits_minutesOfMillis? {millis : ℕ} {d : Decimal} (h : minutesOfMillis? millis = some d) :
    d.Fits (millis / 60000) := by
  have exact (whole : d.value = millis / 60000) : d.Fits (millis / 60000) := by
    rw [← whole]
    exact .self (by rw [whole]; positivity)
  rw [minutesOfMillis?] at h
  split at h
  · next whole =>
      obtain ⟨minutes, rfl⟩ := Nat.dvd_of_mod_eq_zero whole
      refine exact ?_
      rw [value_of_ofParts? h, Nat.mul_div_cancel_left _ (by decide)]
      push_cast
      ring
  · split at h
    · next finite =>
        obtain ⟨mantissa, hmantissa⟩ := Nat.dvd_of_mod_eq_zero finite
        have cast : (100000 * millis : ℚ) = 60000 * mantissa := by exact_mod_cast hmantissa
        rw [hmantissa, Nat.mul_div_cancel_left _ (by decide)] at h
        have trimmed : ofParts? false (trimFive mantissa).1 (trimFive mantissa).2 = some d := h
        refine exact ?_
        rw [value_of_ofParts? trimmed, value_trimFive]
        linarith
    · exact fits_unending h

theorem fits_elapsedMinutes (start stop : Instant) :
    (elapsedMinutes start stop).Fits (elapsedMillis start stop / 60000) := by
  obtain ⟨d, hd, -⟩ := exists_near_elapsed start stop
  rw [elapsedMinutes, hd]
  exact fits_minutesOfMillis? hd

/-! ## Amounts -/

variable {tariff : Tariff} {base : Decimal}

/-- An amount is charged if the product and the sum fit. -/
theorem accrued_eq_ok_iff {amount : Decimal} :
    tariff.accrued base start stop = .ok amount ↔ ∃ product sum,
      (elapsedMinutes start stop).mul? tariff.accrualRate = some product ∧
        base.add? product = some sum ∧ amount = sum.rounded := by
  rw [accrued]
  cases hproduct : (elapsedMinutes start stop).mul? tariff.accrualRate with
  | none => simp
  | some product =>
      cases hsum : base.add? product with
      | none => simp [hsum]
      | some sum =>
          rw [Option.bind_some, hsum, Except.ok.injEq]
          constructor
          · rintro rfl
            exact ⟨product, sum, rfl, hsum, rfl⟩
          · rintro ⟨product', sum', same, hsum', rfl⟩
            obtain rfl := Option.some.inj same
            rw [Option.some.inj (hsum.symm.trans hsum')]

theorem accrued_eq_ok_or_overflow (tariff : Tariff) (base : Decimal) (start stop : Instant) :
    (∃ amount, tariff.accrued base start stop = .ok amount) ∨
      tariff.accrued base start stop =
        .error (.amountOverflow base tariff.accrualRate start stop) := by
  rw [accrued]
  split
  · exact .inl ⟨_, rfl⟩
  · exact .inr rfl

/-- In no time nothing accrues. -/
theorem exists_accrued_of_zero (tariff : Tariff) (base : Decimal)
    (zero : elapsedMillis start stop = 0) :
    ∃ amount, tariff.accrued base start stop = .ok amount ∧ amount.value = base.rounded.value := by
  have none : (elapsedMinutes start stop).value = 0 := by
    have fits := fits_elapsedMinutes start stop
    rw [zero, Nat.cast_zero, zero_div, ← value_zero] at fits
    rw [fits.value_unique (.self value_zero.ge), value_zero]
  obtain ⟨hproduct, -⟩ := mul?_of_eq_zero (b := tariff.accrualRate) (.inl none)
  obtain ⟨sum, hsum, same⟩ := add?_of_eq_zero (a := base) (.inr value_zero)
  refine ⟨sum.rounded, accrued_eq_ok_iff.2 ⟨Decimal.zero, sum, hproduct, hsum, rfl⟩, ?_⟩
  rw [value_rounded, value_rounded, ← same, value_zero, add_zero]

section

variable (hbase : 0 ≤ base.value) (hrate : 0 ≤ tariff.accrualRate.value)

include hbase hrate

/-- No charge is less than the base fee. -/
theorem value_rounded_le_of_accrued {amount : Decimal}
    (h : tariff.accrued base start stop = .ok amount) : base.rounded.value ≤ amount.value := by
  obtain ⟨product, sum, hproduct, hsum, rfl⟩ := accrued_eq_ok_iff.1 h
  have minutes := fits_elapsedMinutes start stop
  have product := fits_mul? minutes.nonneg hrate hproduct
  have sum := fits_add? hbase product.nonneg hsum
  have le := (Fits.self hbase).value_le sum (le_add_of_nonneg_right product.nonneg)
  rw [value_rounded, value_rounded]
  exact toCents_mono le

/-- In a longer time no less accrues, and it can be charged for a shorter time if it can for a
longer one. -/
theorem exists_accrued_le (le : elapsedMillis start stop ≤ elapsedMillis start' stop')
    {amount' : Decimal} (h : tariff.accrued base start' stop' = .ok amount') :
    ∃ amount, tariff.accrued base start stop = .ok amount ∧ amount.value ≤ amount'.value := by
  obtain ⟨product', sum', hproduct', hsum', rfl⟩ := accrued_eq_ok_iff.1 h
  have minutes := fits_elapsedMinutes start stop
  have minutes_le : (elapsedMinutes start stop).value ≤ (elapsedMinutes start' stop').value :=
    minutes.value_le (fits_elapsedMinutes start' stop') (by gcongr)
  obtain ⟨product, hproduct, nonneg, product_le⟩ :=
    exists_mul?_le minutes.nonneg hrate minutes_le hproduct'
  obtain ⟨sum, hsum, nonneg, sum_le⟩ := exists_add?_le hbase nonneg product_le hsum'
  refine ⟨sum.rounded, accrued_eq_ok_iff.2 ⟨product, sum, hproduct, hsum, rfl⟩, ?_⟩
  rw [value_rounded, value_rounded]
  exact toCents_mono sum_le

/-- What accrues grows with the whole milliseconds of the rental, as far as it can be charged. These
grow with the end of the rental if no leap second is involved, but for one in which the rental
starts at the end of a day. The charge is never below the base fee, and it is the base fee for a
rental that ends as soon as it starts, or before. -/
theorem accrued_monotone :
    (∀ start stop start' stop', elapsedMillis start stop ≤ elapsedMillis start' stop' →
      (∀ amount', tariff.accrued base start' stop' = .ok amount' →
        ∃ amount, tariff.accrued base start stop = .ok amount ∧ amount.value ≤ amount'.value) ∧
      (tariff.accrued base start stop =
          .error (.amountOverflow base tariff.accrualRate start stop) →
        tariff.accrued base start' stop' =
          .error (.amountOverflow base tariff.accrualRate start' stop'))) ∧
    (∀ start stop stop' : Instant, start.Steady → stop.inLeapSecond = false →
      stop'.inLeapSecond = false →
        (stop ≤ stop' → elapsedMillis start stop ≤ elapsedMillis start stop') ∧
        (stop ≤ start → elapsedMillis start stop = 0)) ∧
    (∀ start stop amount, tariff.accrued base start stop = .ok amount →
      base.rounded.value ≤ amount.value ∧ 0 ≤ amount.value) ∧
    ∀ start stop, elapsedMillis start stop = 0 →
      ∃ amount, tariff.accrued base start stop = .ok amount ∧
        amount.value = base.rounded.value := by
  refine ⟨fun start stop start' stop' le => ⟨fun _ => exists_accrued_le hbase hrate le, ?_⟩,
    fun _ _ _ hstart hstop hstop' => ⟨elapsedMillis_mono hstart hstop hstop',
      elapsedMillis_eq_zero hstart hstop⟩, fun _ _ amount h => ?_,
    fun _ _ => exists_accrued_of_zero tariff base⟩
  · intro overflow
    refine (accrued_eq_ok_or_overflow tariff base start' stop').resolve_left ?_
    rintro ⟨amount', h⟩
    obtain ⟨amount, charged, -⟩ := exists_accrued_le hbase hrate le h
    cases overflow.symm.trans charged
  · have le := value_rounded_le_of_accrued hbase hrate h
    have nonneg : 0 ≤ base.rounded.value := by
      rw [value_rounded, toCents_of_nonneg hbase]
      positivity
    exact ⟨le, nonneg.trans le⟩

end

/-- After half a second no less is charged than after a tenth, and no less than the base fee. -/
theorem accrued_monotone_threefold :
    0 ≤ threefold.baseFee.value ∧ 0 ≤ threefold.accrualRate.value ∧
    elapsedMillis .epoch (afterMillis 100) ≤ elapsedMillis .epoch (afterMillis 500) ∧
    ∃ amount amount', threefold.accrued threefold.baseFee .epoch (afterMillis 100) = .ok amount ∧
      threefold.accrued threefold.baseFee .epoch (afterMillis 500) = .ok amount' ∧
      threefold.baseFee.rounded.value ≤ amount.value ∧ amount.value ≤ amount'.value := by
  have hbase := isPrice_threefold.1.nonneg
  have hrate := isPrice_threefold.2.nonneg
  obtain ⟨grows, later, above, -⟩ := accrued_monotone hbase hrate
  have le := (later .epoch (afterMillis 100) (afterMillis 500) (.inl rfl) (by decide +kernel)
    (by decide +kernel)).1 (by decide +kernel)
  have charged : threefold.accrued threefold.baseFee .epoch (afterMillis 500) =
      .ok ⟨false, 102, 2, by decide, by decide⟩ := by decide +kernel
  obtain ⟨amount, hamount, smaller⟩ := (grows _ _ _ _ le).1 _ charged
  exact ⟨hbase, hrate, le, amount, _, hamount, charged, (above _ _ _ hamount).1, smaller⟩

/-- A rental for 10.00 and 60.00 for a minute, which is one for every second. -/
def secondly : Tariff where
  baseFee := (ofParts? false 1000 2).getD .zero
  accrualRate := (ofParts? false 60 0).getD .zero

/-- Half a second into a leap second at noon, 12:00:60.5 on the first of May 2024. -/
def noonLeap : Instant := (Instant.ofParts? 1714564859 1500000000).getD .epoch

/-- Just before the following midnight. -/
def beforeMidnight : Instant := (Instant.ofMillis? 1714607999999 0).getD .epoch

def midnight : Instant := (Instant.ofMillis? 1714608000000 0).getD .epoch

/-- Late in a leap second that ends the day. -/
def midnightLeap : Instant := (Instant.ofParts? 1714607999 1900000000).getD .epoch

/-- After midnight a rental that started in a leap second costs a second less than before, and a
rental that ended in a leap second before its start costs more than nothing. -/
theorem not_accrued_monotone :
    (beforeMidnight ≤ midnight ∧ ∃ amount amount',
      secondly.accrued secondly.baseFee noonLeap beforeMidnight = .ok amount ∧
      secondly.accrued secondly.baseFee noonLeap midnight = .ok amount' ∧
      amount'.value < amount.value) ∧
    (midnightLeap ≤ midnight ∧ ∃ amount,
      secondly.accrued secondly.baseFee midnight midnightLeap = .ok amount ∧
      secondly.baseFee.rounded.value < amount.value) := by
  refine ⟨⟨by decide +kernel, ⟨false, 4315050, 2, by decide, by decide⟩,
    ⟨false, 4314950, 2, by decide, by decide⟩, by decide +kernel, by decide +kernel, ?_⟩,
    by decide +kernel, ⟨false, 1090, 2, by decide, by decide⟩, by decide +kernel, ?_⟩
  · norm_num [value, signed]
  · have rounded : secondly.baseFee.rounded = ⟨false, 1000, 2, by decide, by decide⟩ := by decide
    norm_num [rounded, value, signed]

end Tariff

end RentalDesk
