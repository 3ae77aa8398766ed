import RentalDesk.Proofs.Arithmetic.Rounding
import RentalDesk.Tariff

/-!
# Minutes

Milliseconds are sixty-thousandths of a minute, so every third count of them has no finite decimal
of minutes. What is dropped then is a third or two thirds of a unit of the last decimal: the count
of minutes is too low if the milliseconds leave a remainder of two when they are divided by three,
and never otherwise. The calendar is so short that there is always room for seventeen decimals.
-/

namespace RentalDesk

namespace Instant

/-- The calendar is shorter than so many milliseconds. -/
theorem millisBetween_le (start stop : Instant) :
    millisBetween start stop ≤ 17000000000000000 := by
  have first : firstSecond = -8334601228800 := by decide
  have last : lastSecond = 8210266876799 := by decide
  have second : ((nanosPerSecond : Nat) : Int) = 1000000000 := rfl
  have hstart := start.first_le
  have hstop := stop.le_last
  have hnano := stop.nano_lt
  have hleap : leapBetween start stop ≤ 1 := by
    rw [leapBetween]
    split <;> split <;> omega
  have nanos : nanosBetween start stop ≤ 17000000000000000 * 1000000 := by
    rw [nanosBetween, second]
    omega
  rw [millisBetween]
  exact Int.tdiv_le_tdiv (by decide) nanos

end Instant

namespace Tariff

open Decimal

/-! ## Trimming five decimals -/

/-- So many zeros at the end are trimmed. -/
theorem trimFive_eq (mantissa : Nat) : ∃ zeros ≤ 5, 10 ^ zeros ∣ mantissa ∧
    trimFive mantissa = (mantissa / 10 ^ zeros, 5 - zeros) := by
  by_cases two : mantissa % 100 = 0
  · by_cases one : mantissa / 100 % 10 = 0
    · exact ⟨3, by decide, by omega, by simp [trimFive, two, one, Nat.div_div_eq_div_mul]⟩
    · exact ⟨2, by decide, by omega, by simp [trimFive, two, one]⟩
  · by_cases one : mantissa % 10 = 0
    · exact ⟨1, by decide, by omega, by simp [trimFive, two, one]⟩
    · exact ⟨0, by decide, one_dvd _, by simp [trimFive, two, one]⟩

theorem value_trimFive (mantissa : Nat) :
    ((trimFive mantissa).1 : ℚ) / 10 ^ (trimFive mantissa).2 = mantissa / 10 ^ 5 := by
  obtain ⟨zeros, le, ⟨rest, rfl⟩, trimmed⟩ := trimFive_eq mantissa
  rw [trimmed, Nat.mul_div_cancel_left _ (by positivity)]
  have five : (10 : ℚ) ^ 5 = 10 ^ zeros * 10 ^ (5 - zeros) := by
    rw [← pow_add, Nat.add_sub_cancel' le]
  rw [five]
  push_cast
  field_simp

theorem trimFive_le (mantissa : Nat) :
    (trimFive mantissa).1 ≤ mantissa ∧ (trimFive mantissa).2 ≤ 5 := by
  obtain ⟨zeros, -, -, trimmed⟩ := trimFive_eq mantissa
  rw [trimmed]
  exact ⟨Nat.div_le_self .., Nat.sub_le ..⟩

/-! ## Counts of minutes -/

theorem exists_near_ofParts? {mantissa scale decimals : Nat} (hmantissa : mantissa < bound)
    (hscale : scale ≤ 28) : ∃ d, ofParts? false mantissa scale = some d ∧
      d.Near decimals (mantissa / 10 ^ scale) := by
  refine ⟨⟨false, mantissa, scale, hmantissa, hscale⟩, signed?_eq_some hmantissa hscale, ?_⟩
  rw [← value_of_positive (d := ⟨false, mantissa, scale, hmantissa, hscale⟩) rfl]
  exact .self (by rw [value_of_positive rfl]; positivity)

section

variable {millis decimals : Nat} (room : (millis : ℚ) / 60000 * 10 ^ decimals + 1 ≤ 2 ^ 96)

include room

/-- The minutes fit with fewer decimals all the more. -/
theorem room_of_le {k : Nat} (hk : k ≤ decimals) :
    (millis : ℚ) / 60000 * 10 ^ k + 1 ≤ ((bound : ℕ) : ℚ) := by
  have powers : (10 : ℚ) ^ k ≤ 10 ^ decimals := pow_le_pow_right₀ (by norm_num) hk
  have shorter := mul_le_mul_of_nonneg_left powers (show (0 : ℚ) ≤ millis / 60000 by positivity)
  rw [cast_twoPow]
  linarith

theorem lt_bound_of_room {n k : Nat} (hk : k ≤ decimals)
    (hn : (n : ℚ) = millis / 60000 * 10 ^ k) : n < bound := by
  have below : (n : ℚ) < ((bound : ℕ) : ℚ) := by
    rw [hn]
    linarith [room_of_le room hk]
  exact Nat.cast_lt.1 below

/-- A count that does not end is cut off where there is no more room. -/
theorem exists_near_unending (le : decimals ≤ maxScale) :
    ∃ d, ((List.range (maxScale + 1)).findSome? fun dropped =>
        ofParts? false (divHalfEven (millis * tenPow (maxScale - dropped)) millisPerMinute)
          (maxScale - dropped)) = some d ∧ d.Near decimals (millis / 60000) := by
  have grid : ∀ k : ℕ, ((millis * tenPow k : ℕ) : ℚ) / (millisPerMinute : ℕ) =
      millis / 60000 * 10 ^ k := by
    intro k
    rw [Nat.cast_mul, cast_tenPow]
    push_cast
    ring
  have small : divHalfEven (millis * tenPow decimals) millisPerMinute < bound := by
    refine divHalfEven_lt (by decide) ?_
    rw [grid]
    exact room_of_le room le_rfl
  obtain ⟨dropped, d, hdropped, hd, found⟩ := exists_findSome?_range
    (f := fun dropped => ofParts? false
      (divHalfEven (millis * tenPow (maxScale - dropped)) millisPerMinute) (maxScale - dropped))
    (show maxScale - decimals < maxScale + 1 by omega)
    (by
      rw [Nat.sub_sub_self le, ofParts?, Bool.false_and, signed?_eq_some small le]
      rfl)
  obtain ⟨positive, hmantissa, hscale⟩ := of_signed?_eq_some found
  have rounds := rounds_of_mantissa (by decide) positive hmantissa
  rw [grid, hscale, mul_div_cancel_right₀ _ (by positivity)] at rounds
  exact ⟨d, hd, rounds, .inl (by omega)⟩

/-- A time of which the minutes fit with so many decimals is counted with no fewer of them, unless
the count is exact. -/
theorem exists_near_minutes (five : 5 ≤ decimals) (le : decimals ≤ maxScale) :
    ∃ d, minutesOfMillis? millis = some d ∧ d.Near decimals (millis / 60000) := by
  rw [minutesOfMillis?]
  split
  · next whole =>
      obtain ⟨minutes, hminutes⟩ := Nat.dvd_of_mod_eq_zero whole
      have value : (millis : ℚ) / 60000 = minutes / 10 ^ 0 := by
        rw [hminutes]
        push_cast
        ring
      have small : minutes < bound := lt_bound_of_room room (Nat.zero_le _) (by rw [value]; ring)
      rw [hminutes, Nat.mul_div_cancel_left _ (by decide), ← hminutes, value]
      exact exists_near_ofParts? small (by decide)
  · split
    · next finite =>
        obtain ⟨mantissa, hmantissa⟩ := Nat.dvd_of_mod_eq_zero finite
        have value : (millis : ℚ) / 60000 = mantissa / 10 ^ 5 := by
          have cast : (100000 * millis : ℚ) = 60000 * mantissa := by exact_mod_cast hmantissa
          linarith
        have small : mantissa < bound := lt_bound_of_room room five (by rw [value]; ring)
        obtain ⟨less, short⟩ := trimFive_le mantissa
        rw [hmantissa, Nat.mul_div_cancel_left _ (by decide), value, ← value_trimFive]
        exact exists_near_ofParts? (less.trans_lt small) (short.trans (by decide))
    · exact exists_near_unending room le

end

/-- The calendar is too short for a time that does not fit. -/
theorem exists_near_elapsed (start stop : Instant) : ∃ d,
    minutesOfMillis? (Instant.millisBetween start stop).toNat = some d ∧
      d.Near 17 ((Instant.millisBetween start stop).toNat / 60000) := by
  have few : (Instant.millisBetween start stop).toNat ≤ 17000000000000000 :=
    Int.toNat_le.2 (Instant.millisBetween_le start stop)
  have few' : ((Instant.millisBetween start stop).toNat : ℚ) ≤ 17000000000000000 := by
    exact_mod_cast few
  have room : ((Instant.millisBetween start stop).toNat : ℚ) / 60000 * 10 ^ 17 + 1 ≤ 2 ^ 96 := by
    linarith
  exact exists_near_minutes room (by decide) (by decide)

/-- An elapsed time is known to seventeen decimals of a minute. -/
theorem near_elapsedMinutes (start stop : Instant) : (elapsedMinutes start stop).Near 17
    ((Instant.millisBetween start stop).toNat / 60000) := by
  obtain ⟨d, hd, near⟩ := exists_near_elapsed start stop
  rw [elapsedMinutes, hd]
  exact near

/-- What is dropped from a count of minutes is two thirds of a unit, or nothing, if the milliseconds
do not leave a remainder of two. -/
theorem le_value_of_mod_three {millis decimals : Nat} {minutes : Decimal} (five : 5 ≤ decimals)
    (near : minutes.Near decimals (millis / 60000)) (h : millis % 3 ≠ 2) :
    (millis : ℚ) / 60000 ≤ minutes.value := by
  rcases near.fine with fine | exact
  swap
  · rw [exact]
  obtain ⟨more, hscale⟩ := Nat.exists_eq_add_of_le (five.trans fine)
  have close := (abs_le.1 near.toRounds.abs_mantissa_sub_le).1
  rw [hscale, pow_add] at close
  -- In thirds of a unit of the last decimal both counts are integers.
  have thirds : 5 * (millis * 10 ^ more) < 3 * minutes.mantissa + 2 := by
    have thirds' : (5 * (millis * 10 ^ more) : ℚ) < 3 * minutes.mantissa + 2 := by linarith
    exact_mod_cast thirds'
  have ones : 10 ^ more % 3 = 1 := by
    rw [Nat.pow_mod]
    simp
  have remainder : millis * 10 ^ more % 3 = millis % 3 := by
    rw [Nat.mul_mod, ones, Nat.mul_one, Nat.mod_mod]
  have below : 5 * (millis * 10 ^ more) ≤ 3 * minutes.mantissa := by omega
  have below' : (5 * (millis * 10 ^ more) : ℚ) ≤ 3 * minutes.mantissa := by exact_mod_cast below
  rw [value_of_nonneg near.nonneg, hscale, pow_add, div_le_div_iff₀ (by norm_num) (by positivity)]
  linarith

end Tariff

end RentalDesk
