import RentalDesk.Proofs.Arithmetic.Rounding

/-!
# As many decimals as fit

A result keeps as many decimals as there is room for, so that results of different size are rounded
on different grids. Rounding keeps their order all the same: where a number is rounded on a coarser
grid than a smaller one, it is because the next decimal of it does not fit any more, and so it lies
beyond all that the finer grid can hold. A result is missing from `2 ^ 96 - 1 / 2` on, where
rounding to a whole number leaves the range, and nowhere else.
-/

namespace RentalDesk.Decimal

/-! ## The nearest natural number -/

/-- The natural number nearest to `x`, the even one of two that are equally near. -/
structure Nearest (n : ℕ) (x : ℚ) : Prop where
  low : x ≤ n + 1 / 2
  high : n - 1 / 2 ≤ x
  even : x = n + 1 / 2 ∨ x = n - 1 / 2 → n % 2 = 0

theorem Nearest.self (n : ℕ) : Nearest n n where
  low := by linarith
  high := by linarith
  even := by rintro (half | half) <;> linarith

namespace Nearest

variable {n n' : ℕ} {x x' : ℚ}

/-- Two numbers that are rounded in the wrong order are one half, which has one even neighbour. -/
theorem mono (h : Nearest n x) (h' : Nearest n' x') (le : x ≤ x') : n ≤ n' := by
  by_contra later
  have next : (n' + 1 : ℚ) ≤ n := by exact_mod_cast Nat.lt_of_not_le later
  have low := h'.low
  have high := h.high
  have neighbours : n = n' + 1 := by
    have below : (n : ℚ) ≤ n' + 1 := by linarith
    exact le_antisymm (by exact_mod_cast below) (Nat.lt_of_not_le later)
  have even := h.even (.inr (by linarith))
  have even' := h'.even (.inl (by linarith))
  omega

/-- An even number is reached by rounding from half a unit below it on. -/
theorem le_iff (h : Nearest n x) {limit : ℕ} (heven : limit % 2 = 0) :
    limit ≤ n ↔ (limit : ℚ) - 1 / 2 ≤ x := by
  constructor
  · intro le
    have le' : (limit : ℚ) ≤ n := by exact_mod_cast le
    have high := h.high
    linarith
  · intro le
    by_contra below
    have next : (n + 1 : ℚ) ≤ limit := by exact_mod_cast Nat.lt_of_not_le below
    have low := h.low
    have neighbours : limit = n + 1 := by
      have above : (limit : ℚ) ≤ n + 1 := by linarith
      exact le_antisymm (by exact_mod_cast above) (Nat.lt_of_not_le below)
    have even := h.even (.inl (by linarith))
    omega

end Nearest

theorem nearest_divHalfEven (n : ℕ) {d : ℕ} (hd : 0 < d) :
    Nearest (divHalfEven n d) ((n : ℚ) / d) := by
  have hd' : (0 : ℚ) < d := Nat.cast_pos.2 hd
  obtain ⟨low, high⟩ := abs_le.1 (abs_divHalfEven_sub_le n hd)
  refine ⟨by linarith, by linarith, fun half => ?_⟩
  have half' : 2 * n = 2 * (divHalfEven n d * d) + d ∨ 2 * n + d = 2 * (divHalfEven n d * d) := by
    rcases half with half | half
    · rw [div_eq_iff hd'.ne'] at half
      refine .inl ?_
      have : (2 * n : ℚ) = 2 * (divHalfEven n d * d) + d := by linarith
      exact_mod_cast this
    · rw [div_eq_iff hd'.ne'] at half
      refine .inr ?_
      have : (2 * n + d : ℚ) = 2 * (divHalfEven n d * d) := by linarith
      exact_mod_cast this
  have split := Nat.div_add_mod n d
  have small := Nat.mod_lt n hd
  have up : (n / d + 1) * d = d * (n / d) + d := by ring
  have down : n / d * d = d * (n / d) := Nat.mul_comm ..
  -- Twice the remainder is the divisor, so the even neighbour was taken.
  rw [divHalfEven] at half' ⊢
  split_ifs at half' ⊢ <;> omega

/-! ## The finest decimals -/

/-- The bound on mantissas is even. -/
theorem bound_mod_two : bound % 2 = 0 := by decide

theorem cast_bound : ((bound : ℕ) : ℚ) = 2 ^ 96 := cast_twoPow 96

/-- The decimal is the number rounded to as many decimals as fit, or it is the number itself. -/
structure Fits (d : Decimal) (x : ℚ) : Prop where
  nonneg : 0 ≤ d.value
  nearest : Nearest d.mantissa (x * 10 ^ d.scale)
  full : d.value = x ∨ d.scale = maxScale ∨ 2 ^ 96 - 1 / 2 ≤ x * 10 ^ (d.scale + 1)

variable {d d' : Decimal} {x x' : ℚ}

theorem Fits.self (h : 0 ≤ d.value) : d.Fits d.value where
  nonneg := h
  nearest := by
    rw [value_of_nonneg h, div_mul_cancel₀ _ (by positivity)]
    exact .self _
  full := .inl rfl

/-- A natural number on a finer grid. -/
theorem natCast_div_eq {g g' : ℕ} (h : g ≤ g') (n : ℕ) :
    (n : ℚ) / 10 ^ g = ((n * 10 ^ (g' - g) : ℕ) : ℚ) / 10 ^ g' := by
  obtain ⟨more, rfl⟩ := Nat.exists_eq_add_of_le h
  rw [Nat.add_sub_cancel_left, pow_add]
  push_cast
  field_simp

namespace Fits

theorem value_le_of_scale_eq (h : d.Fits x) (h' : d'.Fits x') (le : x ≤ x')
    (same : d.scale = d'.scale) : d.value ≤ d'.value := by
  have mantissas : d.mantissa ≤ d'.mantissa :=
    h.nearest.mono h'.nearest (by rw [same]; gcongr)
  rw [value_of_nonneg h.nonneg, value_of_nonneg h'.nonneg, same]
  gcongr

/-- A larger number is rounded on a finer grid only if the smaller one is exact. -/
theorem value_le_of_finer (h : d.Fits x) (h' : d'.Fits x') (le : x ≤ x')
    (finer : d.scale < d'.scale) : d.value ≤ d'.value := by
  rcases h.full with exact | most | full
  · rw [← exact, value_of_nonneg h.nonneg, natCast_div_eq finer.le, div_le_iff₀ (by positivity)]
      at le
    have mantissas := (Nearest.self _).mono h'.nearest le
    rw [value_of_nonneg h.nonneg, value_of_nonneg h'.nonneg, natCast_div_eq finer.le]
    gcongr
  · rw [most] at finer
    exact absurd finer (Nat.not_lt.2 d'.scale_le)
  · -- What is beyond the range with one more decimal is beyond it with all of these.
    have nonneg : 0 ≤ x := by
      by_contra neg
      have : x * 10 ^ (d.scale + 1) ≤ 0 :=
        mul_nonpos_of_nonpos_of_nonneg (le_of_not_ge neg) (by positivity)
      linarith
    have beyond : x * 10 ^ (d.scale + 1) ≤ x' * 10 ^ d'.scale :=
      mul_le_mul le (pow_le_pow_right₀ (by norm_num) finer) (by positivity) (nonneg.trans le)
    have past : bound ≤ d'.mantissa := by
      rw [h'.nearest.le_iff bound_mod_two, cast_bound]
      exact full.trans beyond
    exact absurd d'.mantissa_lt (Nat.not_lt.2 past)

/-- Where a larger number is rounded on a coarser grid, it is beyond all of the finer one. -/
theorem value_le_of_coarser (h : d.Fits x) (h' : d'.Fits x') (le : x ≤ x')
    (coarser : d'.scale < d.scale) : d.value ≤ d'.value := by
  rw [value_of_nonneg h.nonneg, value_of_nonneg h'.nonneg, natCast_div_eq coarser.le]
  have mantissas : d.mantissa ≤ d'.mantissa * 10 ^ (d.scale - d'.scale) := by
    rcases h'.full with exact | most | full
    · rw [← exact, value_of_nonneg h'.nonneg, natCast_div_eq coarser.le,
        le_div_iff₀ (by positivity)] at le
      exact h.nearest.mono (.self _) le
    · rw [most] at coarser
      exact absurd coarser (Nat.not_lt.2 d.scale_le)
    · -- The bound ends in 6, so half a unit below it the next decimal is rounded up.
      have low := h'.nearest.low
      rw [pow_succ (10 : ℚ)] at full
      have tens : (2 ^ 96 : ℚ) ≤ 10 * d'.mantissa + 11 / 2 := by linarith
      have tens' : (2 * 2 ^ 96 : ℕ) ≤ 20 * d'.mantissa + 11 := by
        have : (2 * 2 ^ 96 : ℚ) ≤ 20 * d'.mantissa + 11 := by linarith
        exact_mod_cast this
      have past : d.mantissa ≤ d'.mantissa * 10 := by
        have fits : d.mantissa < 2 ^ 96 := d.mantissa_lt
        omega
      have ten : 10 ≤ 10 ^ (d.scale - d'.scale) := Nat.le_self_pow (by omega) 10
      exact past.trans (Nat.mul_le_mul_left _ ten)
  gcongr

/-- Rounding to as many decimals as fit keeps the order of numbers. -/
theorem value_le (h : d.Fits x) (h' : d'.Fits x') (le : x ≤ x') : d.value ≤ d'.value := by
  rcases lt_trichotomy d.scale d'.scale with finer | same | coarser
  · exact h.value_le_of_finer h' le finer
  · exact h.value_le_of_scale_eq h' le same
  · exact h.value_le_of_coarser h' le coarser

theorem value_unique (h : d.Fits x) (h' : d'.Fits x) : d.value = d'.value :=
  le_antisymm (h.value_le h' le_rfl) (h'.value_le h le_rfl)

end Fits

/-! ## Cutting back -/

theorem signed?_eq_none_iff {negative : Bool} {mantissa scale : Nat} :
    signed? negative mantissa scale = none ↔ ¬ (mantissa < bound ∧ scale ≤ 28) := by
  rw [signed?]
  split
  · next h => simp [h]
  · next h => simp [h]

theorem nearest_dropped {mantissa scale dropped : ℕ} (h : dropped ≤ scale) :
    Nearest (divHalfEven mantissa (tenPow dropped))
      (mantissa / 10 ^ scale * 10 ^ (scale - dropped)) := by
  have cut : (mantissa : ℚ) / 10 ^ scale * 10 ^ (scale - dropped) =
      mantissa / (tenPow dropped : ℕ) := by
    obtain ⟨kept, rfl⟩ := Nat.exists_eq_add_of_le h
    rw [Nat.add_sub_cancel_left, cast_tenPow, pow_add]
    field_simp
  rw [cut]
  exact nearest_divHalfEven _ (tenPow_pos _)

/-- A number is cut back to as many decimals as fit. -/
theorem fits_of_fit? {mantissa scale : ℕ} (h : fit? false mantissa scale = some d) :
    d.Fits (mantissa / 10 ^ scale) := by
  obtain ⟨dropped, hdropped, found, before⟩ := of_findSome?_range h
  split at found
  swap
  · cases found
  next room =>
  obtain ⟨positive, hmantissa, hscale⟩ := of_signed?_eq_some found
  have most : maxScale = 28 := rfl
  refine ⟨?_, ?_, ?_⟩
  · rw [value_of_positive positive]
    positivity
  · rw [hmantissa, hscale]
    exact nearest_dropped (Nat.le_of_lt_succ hdropped)
  · cases dropped with
    | zero =>
        rw [value_of_positive positive, hmantissa, hscale]
        exact .inl (by simp [tenPow])
    | succ dropped =>
        have none := before dropped (Nat.lt_succ_self dropped)
        split at none
        · rw [signed?_eq_none_iff, not_and_or, Nat.not_lt] at none
          have past := none.resolve_right (by rw [not_not]; omega)
          have le : dropped ≤ scale := by omega
          rw [(nearest_dropped le).le_iff bound_mod_two, cast_bound] at past
          rw [hscale, show scale - (dropped + 1) + 1 = scale - dropped by omega]
          exact .inr (.inr past)
        · exact .inr (.inl (by omega))

/-- Only a number that is rounded beyond the range when all its decimals are dropped is not cut back
to a decimal. -/
theorem fit?_eq_none_iff {mantissa scale : ℕ} :
    fit? false mantissa scale = none ↔ (2 ^ 96 - 1 / 2 : ℚ) ≤ mantissa / 10 ^ scale := by
  rw [fit?, List.findSome?_eq_none_iff]
  constructor
  · intro h
    have none := h scale (List.mem_range.2 (Nat.lt_succ_self scale))
    rw [if_pos (Nat.le_add_left ..), Nat.sub_self, signed?_eq_none_iff, not_and_or,
      Nat.not_lt] at none
    have past := none.resolve_right (by decide)
    rwa [(nearest_dropped le_rfl).le_iff bound_mod_two, cast_bound, Nat.sub_self, pow_zero,
      mul_one] at past
  · intro beyond dropped hdropped
    have hdropped := Nat.le_of_lt_succ (List.mem_range.1 hdropped)
    split
    swap
    · rfl
    rw [signed?_eq_none_iff, not_and_or, Nat.not_lt,
      (nearest_dropped hdropped).le_iff bound_mod_two, cast_bound]
    refine .inl (beyond.trans ?_)
    exact le_mul_of_one_le_right (by positivity) (one_le_pow₀ (by norm_num))

/-! ## Products and sums -/

variable {a b c : Decimal}

/-- The values of decimals stay away from the limit. -/
theorem value_lt_limit (d : Decimal) : d.value < 2 ^ 96 - 1 / 2 := by
  have magnitude : (d.mantissa : ℚ) / 10 ^ d.scale ≤ d.mantissa :=
    div_le_self (by positivity) (one_le_pow₀ (by norm_num))
  have below : (d.mantissa + 1 : ℚ) ≤ 2 ^ 96 := by
    rw [← cast_bound]
    exact_mod_cast d.mantissa_lt
  cases sign : d.negative with
  | false =>
      rw [value_of_positive sign]
      linarith
  | true =>
      have nonneg : (0 : ℚ) ≤ d.mantissa / 10 ^ d.scale := by positivity
      rw [value_of_negative sign]
      linarith

theorem fits_mul? (ha : 0 ≤ a.value) (hb : 0 ≤ b.value) (h : a.mul? b = some c) :
    c.Fits (a.value * b.value) := by
  by_cases zeroFactor : a.value = 0 ∨ b.value = 0
  · obtain ⟨hmul, product⟩ := mul?_of_eq_zero zeroFactor
    rw [product, ← Option.some.inj (hmul.symm.trans h)]
    exact .self value_zero.ge
  · rw [not_or] at zeroFactor
    obtain ⟨hmul, product⟩ :=
      mul?_of_pos (ha.lt_of_ne' zeroFactor.1) (hb.lt_of_ne' zeroFactor.2)
    rw [product]
    exact fits_of_fit? (hmul ▸ h)

theorem mul?_eq_none_iff (ha : 0 ≤ a.value) (hb : 0 ≤ b.value) :
    a.mul? b = none ↔ 2 ^ 96 - 1 / 2 ≤ a.value * b.value := by
  by_cases zeroFactor : a.value = 0 ∨ b.value = 0
  · obtain ⟨hmul, product⟩ := mul?_of_eq_zero zeroFactor
    rw [hmul, product]
    exact iff_of_false nofun (not_le.2 zero.value_lt_limit)
  · rw [not_or] at zeroFactor
    obtain ⟨hmul, product⟩ :=
      mul?_of_pos (ha.lt_of_ne' zeroFactor.1) (hb.lt_of_ne' zeroFactor.2)
    rw [hmul, product, fit?_eq_none_iff]

theorem fits_add? (ha : 0 ≤ a.value) (hb : 0 ≤ b.value) (h : a.add? b = some c) :
    c.Fits (a.value + b.value) := by
  by_cases zeroTerm : a.value = 0 ∨ b.value = 0
  · obtain ⟨c', hadd, sum⟩ := add?_of_eq_zero zeroTerm
    have nonneg := add_nonneg ha hb
    rw [sum] at nonneg ⊢
    rw [← Option.some.inj (hadd.symm.trans h)]
    exact .self nonneg
  · rw [not_or] at zeroTerm
    obtain ⟨sum, hadd, whole⟩ := add?_of_pos (ha.lt_of_ne' zeroTerm.1) (hb.lt_of_ne' zeroTerm.2)
    rw [whole]
    exact fits_of_fit? (hadd ▸ h)

theorem add?_eq_none_iff (ha : 0 ≤ a.value) (hb : 0 ≤ b.value) :
    a.add? b = none ↔ 2 ^ 96 - 1 / 2 ≤ a.value + b.value := by
  by_cases zeroTerm : a.value = 0 ∨ b.value = 0
  · obtain ⟨c, hadd, sum⟩ := add?_of_eq_zero zeroTerm
    rw [hadd, sum]
    exact iff_of_false nofun (not_le.2 c.value_lt_limit)
  · rw [not_or] at zeroTerm
    obtain ⟨sum, hadd, whole⟩ := add?_of_pos (ha.lt_of_ne' zeroTerm.1) (hb.lt_of_ne' zeroTerm.2)
    rw [hadd, whole, fit?_eq_none_iff]

/-- A product with a smaller factor fits and is no larger. -/
theorem exists_mul?_le {a' c' : Decimal} (ha : 0 ≤ a.value) (hb : 0 ≤ b.value)
    (le : a.value ≤ a'.value) (h : a'.mul? b = some c') :
    ∃ c, a.mul? b = some c ∧ 0 ≤ c.value ∧ c.value ≤ c'.value := by
  have products := mul_le_mul_of_nonneg_right le hb
  have limit : ¬ 2 ^ 96 - 1 / 2 ≤ a'.value * b.value := by
    rw [← mul?_eq_none_iff (ha.trans le) hb, h]
    exact Option.some_ne_none c'
  obtain ⟨c, hc⟩ : ∃ c, a.mul? b = some c := by
    rw [← Option.ne_none_iff_exists', ne_eq, mul?_eq_none_iff ha hb]
    exact fun beyond => limit (beyond.trans products)
  have fits := fits_mul? ha hb hc
  exact ⟨c, hc, fits.nonneg, fits.value_le (fits_mul? (ha.trans le) hb h) products⟩

/-- A sum with a smaller term fits and is no larger. -/
theorem exists_add?_le {b' c' : Decimal} (ha : 0 ≤ a.value) (hb : 0 ≤ b.value)
    (le : b.value ≤ b'.value) (h : a.add? b' = some c') :
    ∃ c, a.add? b = some c ∧ 0 ≤ c.value ∧ c.value ≤ c'.value := by
  have sums := add_le_add_right le a.value
  have limit : ¬ 2 ^ 96 - 1 / 2 ≤ a.value + b'.value := by
    rw [← add?_eq_none_iff ha (hb.trans le), h]
    exact Option.some_ne_none c'
  obtain ⟨c, hc⟩ : ∃ c, a.add? b = some c := by
    rw [← Option.ne_none_iff_exists', ne_eq, add?_eq_none_iff ha hb]
    exact fun beyond => limit (beyond.trans sums)
  have fits := fits_add? ha hb hc
  exact ⟨c, hc, fits.nonneg, fits.value_le (fits_add? ha (hb.trans le) h) sums⟩

end RentalDesk.Decimal
