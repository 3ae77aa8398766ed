import RentalDesk.Proofs.Arithmetic.Rounding
import RentalDesk.Proofs.Wire.Listings

/-!
# Amounts on display

An amount is shown in units and hundredths. The text denotes the amount rounded to whole cents, so
it keeps the order of amounts, and reading it gives the rounded amount. This is so even if the text
has more digits than a decimal can hold: the digits beyond the capacity are the zeros with which an
amount of few decimals is filled up, and a reader that rounds there drops them. A minus sign in
front of nothing but zeros is shown only if the amount itself is a zero with a minus sign.
-/

namespace RentalDesk

open Text

/-! ## Price tags -/

/-- What is shown of an amount: a minus sign or none, units without superfluous zeros, a point, and
two digits. -/
structure PriceTag where
  negative : Bool
  units : List Char
  tenths : Char
  hundredths : Char
  units_ne_nil : units ≠ []
  leading : ∀ rest, units = '0' :: rest → rest = []
  digits : ∀ c ∈ units ++ [tenths, hundredths], c.isDigit = true

namespace PriceTag

def toText (p : PriceTag) : String :=
  String.ofList
    ((if p.negative then ['-'] else []) ++ (p.units ++ ['.', p.tenths, p.hundredths]))

/-- The number that a price tag denotes. -/
def value (p : PriceTag) : ℚ :=
  (if p.negative then -1 else 1) * (natOfDigits (p.units ++ [p.tenths, p.hundredths]) / 100)

def IsNegativeZero (p : PriceTag) : Prop := p.negative = true ∧ p.value = 0

/-- A text is a price tag in one way at most. -/
theorem toText_injective {p q : PriceTag} (h : p.toText = q.toText) : p = q := by
  have unsigned (p : PriceTag) (rest : List Char) :
      p.units ++ ['.', p.tenths, p.hundredths] ≠ '-' :: rest := by
    obtain ⟨c, units, hunits⟩ := List.exists_cons_of_ne_nil p.units_ne_nil
    have hc : c.isDigit = true := p.digits c (by simp [hunits])
    have hminus : '-'.isDigit = false := rfl
    rw [hunits]
    exact cons_ne_cons_of_isDigit hc hminus _ _
  have body {p q : PriceTag} (h : p.units ++ ['.', p.tenths, p.hundredths] =
      q.units ++ ['.', q.tenths, q.hundredths]) :
      p.units = q.units ∧ p.tenths = q.tenths ∧ p.hundredths = q.hundredths := by
    obtain ⟨units, digits⟩ := List.append_inj' h rfl
    simpa [units] using digits
  have text := String.ofList_injective h
  have same : p.negative = q.negative ∧ p.units ++ ['.', p.tenths, p.hundredths] =
      q.units ++ ['.', q.tenths, q.hundredths] := by
    cases hp : p.negative <;> cases hq : q.negative <;> simp only [hp, hq] at text
    · exact ⟨rfl, text⟩
    · exact absurd text (unsigned p _)
    · exact absurd text.symm (unsigned q _)
    · exact ⟨rfl, (List.cons.inj text).2⟩
  obtain ⟨units, tenths, hundredths⟩ := body same.2
  cases p
  cases q
  simp_all

end PriceTag

namespace Decimal

/-! ## The text on display -/

/-- Hundredths are written as units, a point, and two digits. -/
theorem positional_currencyScale (n : ℕ) :
    positional n currencyScale =
      natDigits (n / 100) ++ ['.', Nat.digitChar (n / 10 % 10), Nat.digitChar (n % 10)] := by
  rcases Nat.lt_or_ge n 100 with small | large
  · -- The zeros in front are filled in for less than a unit only.
    revert n
    decide +kernel
  · have digits : natDigits n =
        natDigits (n / 100) ++ [Nat.digitChar (n / 10 % 10), Nat.digitChar (n % 10)] := by
      rw [natDigits, Nat.toDigits_of_base_le (by decide) (by omega),
        Nat.toDigits_of_base_le (by decide) (by omega), Nat.div_div_eq_div_mul, List.append_assoc]
      rfl
    have some_units : 1 ≤ (natDigits (n / 100)).length :=
      List.length_pos_iff.2 (natDigits_ne_nil _)
    have padded : paddedDigits (currencyScale + 1) n = natDigits n := by
      have none : currencyScale + 1 - (natDigits n).length = 0 := by
        rw [digits, List.length_append]
        exact Nat.sub_eq_zero_of_le (Nat.add_le_add_right some_units 2)
      rw [paddedDigits, none, List.replicate_zero, List.nil_append]
    rw [positional, padded, digits]
    simp

/-- The price tag of an amount. -/
def priceTag (d : Decimal) : PriceTag where
  negative := d.cents.negative
  units := natDigits (d.cents.count / 100)
  tenths := Nat.digitChar (d.cents.count / 10 % 10)
  hundredths := Nat.digitChar (d.cents.count % 10)
  units_ne_nil := natDigits_ne_nil _
  leading _ h := head_natDigits h
  digits c hc := by
    have digit (n : ℕ) : (Nat.digitChar (n % 10)).isDigit = true := by
      rw [Nat.isDigit_digitChar]
      exact decide_eq_true (Nat.mod_lt _ (by decide))
    rcases List.mem_append.1 hc with hc | hc
    · exact isDigit_of_mem_natDigits hc
    · rcases List.mem_pair.1 hc with rfl | rfl
      · exact digit _
      · exact digit _

theorem display_eq_toText (d : Decimal) : d.display = d.priceTag.toText := by
  rw [display, positional_currencyScale]
  rfl

theorem natOfDigits_priceTag (d : Decimal) :
    natOfDigits (d.priceTag.units ++ [d.priceTag.tenths, d.priceTag.hundredths]) =
      d.cents.count := by
  have read (n m : ℕ) : natOfDigits (natDigits m ++ [Nat.digitChar (n / 10 % 10),
      Nat.digitChar (n % 10)]) = 10 * (10 * m + n / 10 % 10) + n % 10 := by
    have digit (k : ℕ) : (Nat.digitChar (k % 10)).toNat - '0'.toNat = k % 10 := by
      rw [Nat.toNat_digitChar_of_lt_ten (Nat.mod_lt _ (by decide))]
      exact Nat.add_sub_cancel_left 48 _
    rw [natOfDigits_eq, Nat.ofDigitChars_append, ← natOfDigits_eq, natOfDigits_natDigits,
      Nat.ofDigitChars_cons, Nat.ofDigitChars_cons, Nat.ofDigitChars_nil, digit, digit]
  exact (read _ _).trans (by omega)

theorem value_priceTag (d : Decimal) : d.priceTag.value = toCents d.value := by
  rw [← value_cents, PriceTag.value, natOfDigits_priceTag, Cents.value]
  change (if d.cents.negative then (-1 : ℚ) else 1) * _ = _
  split
  · ring
  · ring

theorem isNegativeZero_priceTag (d : Decimal) :
    d.priceTag.IsNegativeZero ↔ d.IsNegativeZero := by
  have zero : d.priceTag.value = 0 ↔ d.cents.count = 0 := by
    rw [PriceTag.value, natOfDigits_priceTag]
    split <;> simp
  rw [← isNegativeZero_cents, PriceTag.IsNegativeZero, zero]
  rfl

/-! ## Reading it -/

theorem digitValue?_digitChar {n : ℕ} (h : n < 10) :
    digitValue? 10 (Nat.digitChar n) = some n := by
  revert n
  decide

/-- Behind the point a digit is read if it fits, and is the one to round at if it does not. -/
theorem readFraction?_digitChar {n mantissa scale : ℕ} (h : n < 10) (room : scale < maxScale)
    (cs : List Char) :
    readFraction? (Nat.digitChar n :: cs) mantissa scale true =
      if 10 * mantissa + n < bound then readFraction? cs (10 * mantissa + n) (scale + 1) true
      else roundAt? (Nat.digitChar n :: cs) mantissa scale := by
  rw [readFraction?, if_neg room.ne, digitValue?_digitChar h]

/-- An amount of at most two decimals that is filled up to two of them is read as a number of the
same hundredths, even if the zeros behind it do not fit. -/
theorem exists_readUnsigned?_filled {mantissa scale : ℕ} (hmantissa : mantissa < bound)
    (hscale : scale ≤ currencyScale) :
    ∃ mantissa' scale',
      readUnsigned? (positional (mantissa * tenPow (currencyScale - scale)) currencyScale) 0 false =
        some (mantissa', scale') ∧
      mantissa' < bound ∧ scale' ≤ currencyScale ∧
      mantissa' * tenPow (currencyScale - scale') =
        mantissa * tenPow (currencyScale - scale) := by
  generalize hn : mantissa * tenPow (currencyScale - scale) = n
  have units_le : n / 100 ≤ mantissa := by
    have hundredfold : n ≤ mantissa * 100 :=
      hn ▸ Nat.mul_le_mul_left _ (Nat.pow_le_pow_right (by decide) (Nat.sub_le ..))
    omega
  have units_lt : natOfDigits (natDigits (n / 100)) < bound := by
    rw [natOfDigits_natDigits]
    exact Nat.lt_of_le_of_lt units_le hmantissa
  have tenths_eq : 10 * (n / 100) + n / 10 % 10 = n / 10 := by omega
  have hundredths_eq : 10 * (n / 10) + n % 10 = n := by omega
  have read : readUnsigned? (positional n currencyScale) 0 false =
      if n / 10 < bound then
        if n < bound then some (n, 2) else roundAt? [Nat.digitChar (n % 10)] (n / 10) 1
      else roundAt? [Nat.digitChar (n / 10 % 10), Nat.digitChar (n % 10)] (n / 100) 0 := by
    rw [positional_currencyScale,
      readUnsigned?_of_ne_nil (fun c => isDigit_of_mem_natDigits) (natDigits_ne_nil _) _ units_lt,
      natOfDigits_natDigits, readUnsigned?, show digitValue? 10 '.' = none from rfl]
    simp only [if_pos]
    rw [readFraction?_digitChar (Nat.mod_lt _ (by decide)) (by decide), tenths_eq,
      readFraction?_digitChar (Nat.mod_lt _ (by decide)) (by decide), hundredths_eq]
    rfl
  rw [read]
  -- What does not fit any more are zeros, because the amount itself fits.
  have filled : n = mantissa ∨ n = mantissa * 10 ∨ n = mantissa * 100 := by
    have few : scale ≤ 2 := hscale
    obtain rfl | rfl | rfl : scale = 2 ∨ scale = 1 ∨ scale = 0 := by omega
    · exact .inl (hn.symm.trans (Nat.mul_one _))
    · exact .inr (.inl hn.symm)
    · exact .inr (.inr hn.symm)
  by_cases all : n < bound
  · exact ⟨n, 2, by rw [if_pos (by omega), if_pos all], all, le_rfl, Nat.mul_one n⟩
  by_cases most : n / 10 < bound
  · have hundredths : n % 10 = 0 := by omega
    refine ⟨n / 10, 1, ?_, most, by decide, ?_⟩
    · rw [if_pos most, if_neg all, hundredths]
      rfl
    · change n / 10 * 10 = n
      omega
  · have hundredths : n % 10 = 0 := by omega
    have tenths : n / 10 % 10 = 0 := by omega
    refine ⟨n / 100, 0, ?_, by omega, by decide, ?_⟩
    · rw [if_neg most, tenths, hundredths]
      rfl
    · change n / 100 * 100 = n
      omega

/-- The text on display is read as a decimal, and this is the rounded amount in value. -/
theorem exists_ofText?_display (d : Decimal) :
    ∃ d', ofText? d.display = some d' ∧ d'.value = d.rounded.value := by
  obtain ⟨mantissa, scale, hread, hmantissa, hscale, hundredths⟩ :=
    exists_readUnsigned?_filled d.rounded.mantissa_lt d.scale_rounded_le
  let read : Decimal := ⟨d.rounded.negative, mantissa, scale, hmantissa, hscale.trans (by decide)⟩
  have parts : ofParts? d.rounded.negative mantissa scale = some read.plainZero :=
    dif_pos ⟨hmantissa, read.scale_le⟩
  refine ⟨read.plainZero, ?_, ?_⟩
  · rw [ofText?, display, String.toList_ofList, readPlain?_signText _ hread, parts]
    rfl
  · have magnitude : (mantissa : ℚ) / 10 ^ scale = d.rounded.mantissa / 10 ^ d.rounded.scale := by
      rw [← natCast_hundredths _ hscale, hundredths, natCast_hundredths _ d.scale_rounded_le]
    rw [value_plainZero]
    cases sign : d.rounded.negative with
    | false => rw [value_of_positive sign, ← magnitude, value_of_positive (by exact sign)]
    | true => rw [value_of_negative sign, ← magnitude, value_of_negative (by exact sign)]

theorem rounded_rounded (d : Decimal) : d.rounded.rounded = d.rounded := by
  rw [rounded, if_pos d.scale_rounded_le]

theorem display_rounded (d : Decimal) : d.rounded.display = d.display := by
  rw [display, rounded_rounded]
  rfl

/-! ## Order -/

/-- Decimals are compared by their values. -/
theorem isLE_compareValue_iff {a b : Decimal} : (a.compareValue b).isLE ↔ a.value ≤ b.value := by
  rw [compareValue, Int.isLE_compare, ← Int.cast_le (R := ℚ), cast_units (le_max_left ..),
    cast_units (le_max_right ..)]
  exact mul_le_mul_iff_left₀ (by positivity)

/-- What is shown of an amount is exact to the cent. The text is a price tag, in one way only; it
denotes the amount rounded to cents, a half going away from zero, and has a minus sign before a zero
just if the amount is such a zero. It is read as the rounded amount, rounding first does not change
it, and a greater amount is never shown as less. -/
theorem display_exact :
    (∀ d : Decimal, d.display = d.priceTag.toText ∧
      (∀ p : PriceTag, d.display = p.toText → p = d.priceTag) ∧
      d.priceTag.value = toCents d.value ∧ (d.priceTag.IsNegativeZero ↔ d.IsNegativeZero)) ∧
    (∀ d : Decimal, ∃ d', ofText? d.display = some d' ∧ d'.value = d.rounded.value) ∧
    (∀ d : Decimal, d.rounded.display = d.display) ∧
    ∀ a b : Decimal, (a.compareValue b).isLE → a.priceTag.value ≤ b.priceTag.value := by
  refine ⟨fun d => ⟨d.display_eq_toText, fun p h => ?_, d.value_priceTag,
    d.isNegativeZero_priceTag⟩, exists_ofText?_display, display_rounded, fun a b h => ?_⟩
  · exact PriceTag.toText_injective (h.symm.trans d.display_eq_toText)
  · rw [value_priceTag, value_priceTag]
    exact toCents_mono (isLE_compareValue_iff.1 h)

/-- The greatest amount, which is shown with more digits than a decimal can hold. -/
def greatest : Decimal := ⟨false, 79228162514264337593543950335, 0, by decide, zero.scale_le⟩

/-- Still it is read from what is shown, and no amount is shown as more. -/
theorem display_exact_greatest : greatest.display = "79228162514264337593543950335.00" ∧
    (∃ d, ofText? greatest.display = some d ∧ d.value = greatest.rounded.value) ∧
    (zero.compareValue greatest).isLE ∧ zero.priceTag.value ≤ greatest.priceTag.value :=
  ⟨by decide +kernel, display_exact.2.1 greatest, by decide +kernel,
    display_exact.2.2.2 zero greatest (by decide +kernel)⟩

/-- A zero with a minus sign can be read from a text, and is shown with it. -/
theorem display_shows_negative_zero :
    (ofText? "-0.4e-28").map display = some "-0.00" ∧
    ¬ ∀ d : Decimal, ¬ d.priceTag.IsNegativeZero := by
  refine ⟨by decide +kernel, fun never => never { zero with negative := true } ?_⟩
  rw [isNegativeZero_priceTag]
  exact ⟨rfl, rfl⟩

end Decimal

end RentalDesk
