import RentalDesk.Decimal.Text
import RentalDesk.Proofs.Text.Digits

/-!
# Decimals read back

The exact text of a decimal is read back as the decimal, except that a zero loses its sign.
-/

namespace RentalDesk.Decimal

open Text

/-- The number is a zero with a minus sign. -/
def IsNegativeZero (d : Decimal) : Prop := d.negative = true ∧ d.mantissa = 0

theorem plainZero_eq_self_iff {d : Decimal} : d.plainZero = d ↔ ¬ d.IsNegativeZero := by
  cases d with
  | mk negative mantissa scale hmantissa hscale =>
      cases negative <;> simp [plainZero, IsNegativeZero]

/-! ## Reading digits -/

theorem ofDigitChars_le (digits : List Char) (n : Nat) : n ≤ Nat.ofDigitChars 10 digits n := by
  rw [Nat.ofDigitChars_eq_ofDigitChars_zero]
  exact Nat.le_add_right_of_le (Nat.le_mul_of_pos_left _ (Nat.pow_pos (by decide)))

/-- Digits before the point are read one by one, as long as the whole fits. -/
theorem readUnsigned?_digits {digits : List Char} (hdigits : ∀ c ∈ digits, c.isDigit = true)
    (rest : List Char) {n : Nat} (h : Nat.ofDigitChars 10 digits n < bound) :
    readUnsigned? (digits ++ rest) n true =
      readUnsigned? rest (Nat.ofDigitChars 10 digits n) true := by
  induction digits generalizing n with
  | nil => rfl
  | cons c digits ih =>
      rw [List.forall_mem_cons] at hdigits
      rw [Nat.ofDigitChars_cons] at h ⊢
      have hfits := Nat.lt_of_le_of_lt (ofDigitChars_le digits _) h
      rw [List.cons_append, readUnsigned?, digitValue?_of_isDigit hdigits.1]
      simp only [if_pos hfits]
      exact ih hdigits.2 h

theorem readUnsigned?_of_ne_nil {digits : List Char} (hdigits : ∀ c ∈ digits, c.isDigit = true)
    (hne : digits ≠ []) (rest : List Char) (h : natOfDigits digits < bound) :
    readUnsigned? (digits ++ rest) 0 false = readUnsigned? rest (natOfDigits digits) true := by
  rw [natOfDigits_eq] at h ⊢
  cases digits with
  | nil => exact absurd rfl hne
  | cons c digits =>
      rw [← readUnsigned?_digits hdigits rest h, List.cons_append, readUnsigned?, readUnsigned?,
        digitValue?_of_isDigit (hdigits c List.mem_cons_self)]

/-- Digits behind the point are read one by one, as long as there is room for decimals. -/
theorem readFraction?_digits {digits : List Char} (hdigits : ∀ c ∈ digits, c.isDigit = true)
    {n scale : Nat} (h : Nat.ofDigitChars 10 digits n < bound)
    (hscale : scale + digits.length ≤ maxScale) :
    readFraction? digits n scale true =
      some (Nat.ofDigitChars 10 digits n, scale + digits.length) := by
  induction digits generalizing n scale with
  | nil => rfl
  | cons c digits ih =>
      rw [List.forall_mem_cons] at hdigits
      rw [Nat.ofDigitChars_cons] at h ⊢
      rw [List.length_cons] at hscale ⊢
      have hfits := Nat.lt_of_le_of_lt (ofDigitChars_le digits _) h
      rw [readFraction?, if_neg (by omega), digitValue?_of_isDigit hdigits.1]
      simp only [if_pos hfits]
      rw [ih hdigits.2 h (by omega)]
      congr 2
      omega

/-! ## Reading the exact text -/

/-- The digits of a mantissa with a point among them are read as the mantissa. -/
theorem readUnsigned?_positional {mantissa scale : Nat} (hmantissa : mantissa < bound)
    (hscale : scale ≤ maxScale) :
    readUnsigned? (positional mantissa scale) 0 false = some (mantissa, scale) := by
  have hdigits : ∀ c ∈ paddedDigits (scale + 1) mantissa, c.isDigit = true :=
    fun c => isDigit_of_mem_paddedDigits
  have hlength : scale + 1 ≤ (paddedDigits (scale + 1) mantissa).length := by
    rw [length_paddedDigits]
    exact Nat.le_max_left ..
  have hvalue := natOfDigits_paddedDigits (scale + 1) mantissa
  rw [positional]
  generalize paddedDigits (scale + 1) mantissa = digits at *
  have hsplit := List.take_append_drop (digits.length - scale) digits
  have hwhole : ∀ c ∈ digits.take (digits.length - scale), c.isDigit = true :=
    fun c hc => hdigits c (List.mem_of_mem_take hc)
  have hne : digits.take (digits.length - scale) ≠ [] := by
    rw [← List.length_pos_iff, List.length_take]
    omega
  have hjoin : Nat.ofDigitChars 10 (digits.drop (digits.length - scale))
      (natOfDigits (digits.take (digits.length - scale))) = mantissa := by
    rw [natOfDigits_eq, ← Nat.ofDigitChars_append, hsplit, ← natOfDigits_eq, hvalue]
  have hfits : natOfDigits (digits.take (digits.length - scale)) < bound :=
    Nat.lt_of_le_of_lt (hjoin ▸ ofDigitChars_le _ _) hmantissa
  split
  · next hzero =>
      subst hzero
      rw [← List.append_nil (digits.take _), readUnsigned?_of_ne_nil hwhole hne [] hfits,
        Nat.sub_zero, List.take_length, hvalue, readUnsigned?, if_pos rfl]
  · rw [readUnsigned?_of_ne_nil hwhole hne _ hfits, readUnsigned?,
      show digitValue? 10 '.' = none from rfl]
    simp only [if_pos]
    rw [readFraction?_digits (fun c hc => hdigits c (List.mem_of_mem_drop hc)) (hjoin ▸ hmantissa)
      (by rw [List.length_drop]; omega), hjoin, List.length_drop]
    congr 2
    omega

/-- The text of a number without its sign begins with a digit. -/
theorem positional_eq_cons (mantissa scale : Nat) :
    ∃ c rest, positional mantissa scale = c :: rest ∧ c.isDigit = true := by
  have hlength : scale + 1 ≤ (paddedDigits (scale + 1) mantissa).length := by
    rw [length_paddedDigits]
    exact Nat.le_max_left ..
  cases hdigits : paddedDigits (scale + 1) mantissa with
  | nil => exact absurd hdigits (paddedDigits_ne_nil _ _)
  | cons c digits =>
      have hc : c.isDigit = true :=
        isDigit_of_mem_paddedDigits (hdigits ▸ List.mem_cons_self : c ∈ paddedDigits (scale + 1) _)
      rw [hdigits, List.length_cons] at hlength
      obtain ⟨k, hk⟩ : ∃ k, digits.length + 1 - scale = k + 1 :=
        ⟨digits.length - scale, by omega⟩
      rw [positional, hdigits, List.length_cons, hk, List.take_succ_cons]
      split
      · exact ⟨c, _, rfl, hc⟩
      · exact ⟨c, _, rfl, hc⟩

/-- The sign of a number is read apart from its digits. -/
theorem readPlain?_signText (negative : Bool) {mantissa scale mantissa' scale' : Nat}
    (h : readUnsigned? (positional mantissa scale) 0 false = some (mantissa', scale')) :
    readPlain? (signText negative ++ positional mantissa scale) =
      ofParts? negative mantissa' scale' := by
  cases negative with
  | true =>
      simp only [signText, if_true, List.cons_append, List.nil_append, readPlain?, h,
        Option.bind_some]
  | false =>
      obtain ⟨c, rest, htext, hc⟩ := positional_eq_cons mantissa scale
      rw [signText, if_neg Bool.false_ne_true, List.nil_append, htext, readPlain?]
      · rw [← htext, h, Option.bind_some]
      · exact cons_ne_cons_of_isDigit hc rfl rest
      · exact cons_ne_cons_of_isDigit hc rfl rest

theorem readPlain?_toText (d : Decimal) :
    readPlain? (signText d.negative ++ positional d.mantissa d.scale) = some d.plainZero := by
  rw [readPlain?_signText d.negative (readUnsigned?_positional d.mantissa_lt d.scale_le)]
  exact dif_pos ⟨d.mantissa_lt, d.scale_le⟩

/-- The exact text of a decimal is read as the decimal without the sign of a negative zero. -/
theorem ofText?_toText (d : Decimal) : ofText? d.toText = some d.plainZero := by
  rw [ofText?, toText, String.toList_ofList, readPlain?_toText]
  rfl

end RentalDesk.Decimal
