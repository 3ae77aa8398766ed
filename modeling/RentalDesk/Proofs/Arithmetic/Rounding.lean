import Mathlib.Algebra.Order.Field.Power
import RentalDesk.Proofs.Arithmetic.Value

/-!
# Rounded results

A product or a sum is rounded to some number of decimals that depends on its size. Whatever this
number is, the result is off by at most half a unit of its last decimal, so it does not cross any
number that has no more decimals. And it has at least as many decimals as are known to fit, unless
it is exact.
-/

namespace RentalDesk

namespace Decimal

/-! ## Quotients of natural numbers -/

theorem divHalfEven_bounds (n : Nat) {d : Nat} (hd : 0 < d) :
    2 * n ≤ 2 * (divHalfEven n d * d) + d ∧ 2 * (divHalfEven n d * d) ≤ 2 * n + d := by
  have split := Nat.div_add_mod n d
  have small := Nat.mod_lt n hd
  have up : (n / d + 1) * d = d * (n / d) + d := by ring
  have down : n / d * d = d * (n / d) := Nat.mul_comm ..
  rw [divHalfEven]
  split
  · omega
  · split
    · omega
    · rcases Nat.mod_two_eq_zero_or_one (n / d) with even | odd
      · rw [even, Nat.add_zero]
        omega
      · rw [odd]
        omega

/-- The nearest integer is off by at most a half. -/
theorem abs_divHalfEven_sub_le (n : Nat) {d : Nat} (hd : 0 < d) :
    |(divHalfEven n d : ℚ) - n / d| ≤ 1 / 2 := by
  have hd' : (0 : ℚ) < d := Nat.cast_pos.2 hd
  obtain ⟨low, high⟩ := divHalfEven_bounds n hd
  have low' : (2 * n : ℚ) ≤ 2 * (divHalfEven n d * d) + d := by exact_mod_cast low
  have high' : 2 * (divHalfEven n d * d : ℚ) ≤ 2 * n + d := by exact_mod_cast high
  have gap : (divHalfEven n d : ℚ) - n / d = (divHalfEven n d * d - n) / d := by field_simp
  rw [gap, abs_div, abs_of_pos hd', div_le_iff₀ hd', abs_le]
  constructor <;> linarith

/-- A quotient that leaves room for one more fits when it is rounded. -/
theorem divHalfEven_lt {n d : Nat} (hd : 0 < d) {limit : Nat} (h : (n : ℚ) / d + 1 ≤ limit) :
    divHalfEven n d < limit := by
  have near := (abs_le.1 (abs_divHalfEven_sub_le n hd)).2
  have below : (divHalfEven n d : ℚ) < limit := by linarith
  exact_mod_cast below

/-! ## Decimals near a number -/

/-- The decimal is the given number up to half a unit of its last decimal. -/
structure Rounds (d : Decimal) (x : ℚ) : Prop where
  nonneg : 0 ≤ d.value
  close : |d.value - x| ≤ 1 / (2 * 10 ^ d.scale)

/-- The decimal is the given number rounded to so many decimals or more. -/
structure Near (decimals : Nat) (d : Decimal) (x : ℚ) : Prop extends d.Rounds x where
  fine : decimals ≤ d.scale ∨ d.value = x

variable {d : Decimal} {x : ℚ} {decimals : Nat}

theorem Near.self (h : 0 ≤ d.value) : Near decimals d d.value where
  nonneg := h
  close := by
    rw [sub_self, abs_zero]
    positivity
  fine := .inr rfl

theorem Near.plainZero (h : Near decimals d x) : Near decimals d.plainZero x where
  nonneg := d.value_plainZero ▸ h.nonneg
  close := d.value_plainZero ▸ h.close
  fine := d.value_plainZero ▸ h.fine

/-- In units of the last decimal the number is off by at most a half. -/
theorem Rounds.abs_mantissa_sub_le (h : d.Rounds x) :
    |(d.mantissa : ℚ) - x * 10 ^ d.scale| ≤ 1 / 2 := by
  have unit : (0 : ℚ) < 10 ^ d.scale := by positivity
  have units : (d.mantissa : ℚ) - x * 10 ^ d.scale = (d.value - x) * 10 ^ d.scale := by
    rw [value_of_nonneg h.nonneg, sub_mul, div_mul_cancel₀ _ unit.ne']
  rw [units, abs_mul, abs_of_pos unit, ← le_div_iff₀ unit, div_div]
  exact h.close

/-- Rounding does not cross a number that has no more decimals. -/
theorem Rounds.le_value (h : d.Rounds x) {n : Nat} (fine : decimals ≤ d.scale)
    (hn : (n : ℚ) / 10 ^ decimals ≤ x) : (n : ℚ) / 10 ^ decimals ≤ d.value := by
  obtain ⟨more, hscale⟩ := Nat.exists_eq_add_of_le fine
  have unit : (0 : ℚ) < 10 ^ d.scale := by positivity
  have grid : (n : ℚ) / 10 ^ decimals = ((n * 10 ^ more : ℕ) : ℚ) / 10 ^ d.scale := by
    rw [hscale, pow_add]
    push_cast
    field_simp
  rw [grid, div_le_iff₀ unit] at hn
  have near := (abs_le.1 h.abs_mantissa_sub_le).1
  have below : ((n * 10 ^ more : ℕ) : ℚ) < ((d.mantissa + 1 : ℕ) : ℚ) := by
    push_cast at hn ⊢
    linarith
  have le : n * 10 ^ more ≤ d.mantissa := Nat.le_of_lt_succ (Nat.cast_lt.1 below)
  rw [grid, value_of_nonneg h.nonneg, div_le_div_iff_of_pos_right unit]
  exact_mod_cast le

theorem Near.error_le (h : Near decimals d x) : |d.value - x| ≤ 1 / (2 * 10 ^ decimals) := by
  rcases h.fine with fine | exact
  · refine h.close.trans ?_
    gcongr
    norm_num
  · rw [exact, sub_self, abs_zero]
    positivity

theorem Near.le_value (h : Near decimals d x) {n : Nat} (hn : (n : ℚ) / 10 ^ decimals ≤ x) :
    (n : ℚ) / 10 ^ decimals ≤ d.value := by
  rcases h.fine with fine | exact
  · exact h.toRounds.le_value fine hn
  · rwa [exact]

/-! ## Cutting back to what fits -/

/-- The first hit of a search comes after none. -/
theorem of_findSome?_range {α : Type} {f : Nat → Option α} {count : Nat} {a : α}
    (h : (List.range count).findSome? f = some a) :
    ∃ j < count, f j = some a ∧ ∀ i < j, f i = none := by
  obtain ⟨before, j, after, hsplit, hj, none⟩ := List.findSome?_eq_some_iff.1 h
  have sorted : (before ++ j :: after).Pairwise (· < ·) := hsplit ▸ List.pairwise_lt_range
  have lt_count {i : Nat} (hi : i ∈ before ++ j :: after) : i < count :=
    List.mem_range.1 (hsplit ▸ hi)
  have mem : j ∈ before ++ j :: after := List.mem_append_right _ List.mem_cons_self
  refine ⟨j, lt_count mem, hj, fun i hi => ?_⟩
  have mem : i ∈ before ++ j :: after := hsplit ▸ List.mem_range.2 (hi.trans (lt_count mem))
  rcases List.mem_append.1 mem with hbefore | hafter
  · exact none i hbefore
  · rcases List.mem_cons.1 hafter with rfl | hafter
    · exact absurd hi (lt_irrefl _)
    · have := List.rel_of_pairwise_cons (List.pairwise_append.1 sorted).2.1 hafter
      omega

theorem exists_findSome?_range {α : Type} {f : Nat → Option α} {count k : Nat} (hk : k < count)
    (found : (f k).isSome) :
    ∃ j a, j ≤ k ∧ (List.range count).findSome? f = some a ∧ f j = some a := by
  have some? : ((List.range count).findSome? f).isSome :=
    List.findSome?_isSome_iff.2 ⟨k, List.mem_range.2 hk, found⟩
  obtain ⟨a, ha⟩ := Option.isSome_iff_exists.1 some?
  obtain ⟨j, -, hj, none⟩ := of_findSome?_range ha
  refine ⟨j, a, ?_, ha, hj⟩
  by_contra later
  rw [none k (Nat.lt_of_not_le later)] at found
  cases found

theorem signed?_eq_some {mantissa scale : Nat} (hmantissa : mantissa < bound)
    (hscale : scale ≤ 28) :
    signed? false mantissa scale = some ⟨false, mantissa, scale, hmantissa, hscale⟩ :=
  dif_pos ⟨hmantissa, hscale⟩

theorem of_signed?_eq_some {negative : Bool} {mantissa scale : Nat}
    (h : signed? negative mantissa scale = some d) :
    d.negative = negative ∧ d.mantissa = mantissa ∧ d.scale = scale := by
  rw [signed?] at h
  split at h
  · rw [← Option.some.inj h]
    exact ⟨rfl, rfl, rfl⟩
  · cases h

/-- A quotient that is rounded to an integer is a number that is rounded to the grid. -/
theorem rounds_of_mantissa {n unit : Nat} (hunit : 0 < unit) (positive : d.negative = false)
    (mantissa : d.mantissa = divHalfEven n unit) :
    d.Rounds ((n : ℚ) / unit / 10 ^ d.scale) where
  nonneg := by
    rw [value_of_positive positive]
    positivity
  close := by
    have grid : (0 : ℚ) < 10 ^ d.scale := by positivity
    have half : (1 : ℚ) / (2 * 10 ^ d.scale) = 1 / 2 / 10 ^ d.scale := by field_simp
    rw [value_of_positive positive, ← sub_div, abs_div, abs_of_pos grid, half,
      div_le_div_iff_of_pos_right grid, mantissa]
    exact abs_divHalfEven_sub_le n hunit

@[simp] theorem divHalfEven_one (n : Nat) : divHalfEven n 1 = n := by
  simp [divHalfEven, Nat.mod_one]

/-- A number that fits with so many decimals fits when it is cut back to them. -/
theorem divHalfEven_lt_of_room {mantissa scale : Nat}
    (room : (mantissa : ℚ) / 10 ^ scale * 10 ^ decimals + 1 ≤ 2 ^ 96) :
    divHalfEven mantissa (tenPow (scale - decimals)) < bound := by
  have powers : (10 : ℚ) ^ scale ≤ 10 ^ (scale - decimals) * 10 ^ decimals := by
    rw [← pow_add]
    exact pow_le_pow_right₀ (by norm_num) (by omega)
  have le_tenPow : (mantissa : ℚ) / (tenPow (scale - decimals) : Nat) ≤
      mantissa / 10 ^ scale * 10 ^ decimals := by
    rw [cast_tenPow, div_mul_eq_mul_div, div_le_div_iff₀ (by positivity) (by positivity), mul_assoc,
      mul_comm (_ ^ decimals)]
    gcongr
  refine divHalfEven_lt (tenPow_pos _) ?_
  rw [cast_twoPow]
  linarith

/-- A number that fits with so many decimals is cut back to no fewer of them, if it has to be cut
back at all. -/
theorem exists_near_fit? {mantissa scale : Nat} (le : decimals ≤ maxScale)
    (room : (mantissa : ℚ) / 10 ^ scale * 10 ^ decimals + 1 ≤ 2 ^ 96) :
    ∃ d, fit? false mantissa scale = some d ∧ d.Near decimals (mantissa / 10 ^ scale) := by
  have small := divHalfEven_lt_of_room room
  have le' : decimals ≤ 28 := le
  have fits : scale ≤ 28 + (scale - decimals) := by omega
  obtain ⟨dropped, d, hdropped, hfit, found⟩ := exists_findSome?_range
    (f := fun dropped =>
      if scale ≤ maxScale + dropped then
        signed? false (divHalfEven mantissa (tenPow dropped)) (scale - dropped)
      else none)
    (show scale - decimals < scale + 1 by omega)
    (by rw [if_pos fits, signed?_eq_some small (by omega)]; rfl)
  refine ⟨d, hfit, ?_⟩
  split at found
  swap
  · cases found
  obtain ⟨positive, hmantissa, hscale⟩ := of_signed?_eq_some found
  have rounds := rounds_of_mantissa (tenPow_pos dropped) positive hmantissa
  have whole : (mantissa : ℚ) / (tenPow dropped : Nat) / 10 ^ d.scale = mantissa / 10 ^ scale := by
    rw [cast_tenPow, div_div, ← pow_add, hscale, Nat.add_sub_of_le (by omega)]
  refine ⟨whole ▸ rounds, ?_⟩
  rcases Nat.le_total decimals scale with long | short
  · exact .inl (by omega)
  · -- Nothing is dropped from a number with few decimals.
    obtain rfl : dropped = 0 := by omega
    rw [value_of_positive positive, hmantissa, hscale]
    exact .inr (by simp [tenPow])

/-! ## Products and sums -/

theorem negative_of_fit? {mantissa scale : Nat} (h : fit? false mantissa scale = some d) :
    d.negative = false := by
  obtain ⟨dropped, -, found, -⟩ := of_findSome?_range h
  split at found
  · exact (of_signed?_eq_some found).1
  · cases found

theorem plainZero_of_positive (h : d.negative = false) : d.plainZero = d := by
  cases d
  simp_all [plainZero]

variable {a b : Decimal}

/-- The product of two positive numbers is cut back from all its decimals. -/
theorem mul?_of_pos (ha : 0 < a.value) (hb : 0 < b.value) :
    a.mul? b = fit? false (a.mantissa * b.mantissa) (a.scale + b.scale) ∧
      a.value * b.value = ((a.mantissa * b.mantissa : ℕ) : ℚ) / 10 ^ (a.scale + b.scale) := by
  have factors : ¬ (a.mantissa = 0 ∨ b.mantissa = 0) := by
    rw [not_or, ← value_eq_zero_iff, ← value_eq_zero_iff]
    exact ⟨ha.ne', hb.ne'⟩
  constructor
  · rw [mul?, if_neg factors, negative_of_value_pos ha, negative_of_value_pos hb, bne_self_eq_false]
    dsimp only
    cases hfit : fit? false (a.mantissa * b.mantissa) (a.scale + b.scale) with
    | none => simp
    | some c => simp [plainZero_of_positive (negative_of_fit? hfit)]
  · rw [value_of_nonneg ha.le, value_of_nonneg hb.le, div_mul_div_comm, ← pow_add, Nat.cast_mul]

theorem mul?_of_eq_zero (h : a.value = 0 ∨ b.value = 0) :
    a.mul? b = some zero ∧ a.value * b.value = zero.value := by
  rw [value_zero, mul_eq_zero, mul?, if_pos (by rwa [← value_eq_zero_iff, ← value_eq_zero_iff])]
  exact ⟨rfl, h⟩

theorem exists_near_mul? (decimals : Nat) (ha : 0 ≤ a.value) (hb : 0 ≤ b.value)
    (le : decimals ≤ maxScale) (room : a.value * b.value * 10 ^ decimals + 1 ≤ 2 ^ 96) :
    ∃ c, a.mul? b = some c ∧ c.Near decimals (a.value * b.value) := by
  by_cases zeroFactor : a.value = 0 ∨ b.value = 0
  · obtain ⟨hmul, product⟩ := mul?_of_eq_zero zeroFactor
    rw [product]
    exact ⟨zero, hmul, .self value_zero.ge⟩
  · rw [not_or] at zeroFactor
    obtain ⟨hmul, product⟩ :=
      mul?_of_pos (ha.lt_of_ne' zeroFactor.1) (hb.lt_of_ne' zeroFactor.2)
    rw [hmul, product]
    exact exists_near_fit? le (product ▸ room)

theorem cast_units {scale : Nat} (h : a.scale ≤ scale) :
    (a.units scale : ℚ) = a.value * 10 ^ scale := by
  obtain ⟨more, rfl⟩ := Nat.exists_eq_add_of_le h
  rw [units, value, Nat.add_sub_cancel_left, pow_add]
  push_cast [cast_tenPow]
  field_simp

/-- The sum of two positive numbers is cut back from all its decimals. -/
theorem add?_of_pos (ha : 0 < a.value) (hb : 0 < b.value) :
    ∃ sum : ℕ, a.add? b = fit? false sum (max a.scale b.scale) ∧
      a.value + b.value = sum / 10 ^ max a.scale b.scale := by
  have scaled : ((a.units (max a.scale b.scale) + b.units (max a.scale b.scale) : ℤ) : ℚ) =
      (a.value + b.value) * 10 ^ max a.scale b.scale := by
    rw [Int.cast_add, cast_units (le_max_left ..), cast_units (le_max_right ..), add_mul]
  have nonneg : 0 ≤ a.units (max a.scale b.scale) + b.units (max a.scale b.scale) := by
    rw [← Int.cast_nonneg_iff (R := ℚ), scaled]
    positivity
  obtain ⟨sum, hsum⟩ := Int.eq_ofNat_of_zero_le nonneg
  rw [hsum, Int.cast_natCast] at scaled
  refine ⟨sum, ?_, by rw [scaled, mul_div_cancel_right₀ _ (by positivity)]⟩
  rw [add?, if_neg fun h => ha.ne' (value_eq_zero_iff.2 h),
    if_neg fun h => hb.ne' (value_eq_zero_iff.2 h)]
  dsimp only
  rw [hsum, Int.natAbs_natCast, decide_eq_false (Int.not_lt.2 (Int.natCast_nonneg sum))]

/-- A zero term leaves the other one. -/
theorem add?_of_eq_zero (h : a.value = 0 ∨ b.value = 0) :
    ∃ c, a.add? b = some c ∧ a.value + b.value = c.value := by
  rw [add?]
  by_cases ha : a.value = 0
  · exact ⟨b, if_pos (value_eq_zero_iff.1 ha), by rw [ha, zero_add]⟩
  · have hb := h.resolve_left ha
    refine ⟨a, ?_, by rw [hb, add_zero]⟩
    rw [if_neg fun zero => ha (value_eq_zero_iff.2 zero), if_pos (value_eq_zero_iff.1 hb)]

theorem exists_near_add? (decimals : Nat) (ha : 0 ≤ a.value) (hb : 0 ≤ b.value)
    (le : decimals ≤ maxScale) (room : (a.value + b.value) * 10 ^ decimals + 1 ≤ 2 ^ 96) :
    ∃ c, a.add? b = some c ∧ c.Near decimals (a.value + b.value) := by
  by_cases zeroTerm : a.value = 0 ∨ b.value = 0
  · obtain ⟨c, hadd, sum⟩ := add?_of_eq_zero zeroTerm
    rw [sum]
    exact ⟨c, hadd, .self (sum ▸ add_nonneg ha hb)⟩
  · rw [not_or] at zeroTerm
    obtain ⟨sum, hadd, whole⟩ := add?_of_pos (ha.lt_of_ne' zeroTerm.1) (hb.lt_of_ne' zeroTerm.2)
    rw [hadd, whole]
    exact exists_near_fit? le (whole ▸ room)

end Decimal

end RentalDesk
