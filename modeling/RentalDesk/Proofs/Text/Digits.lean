import RentalDesk.Powers
import RentalDesk.Text.Digits

/-!
# Digits read back

A number is read back from its digits, with zeros in front or without. Whoever reads digits stops
where they end, so what is written behind a number must not begin with a digit.
-/

namespace RentalDesk.Text

/-- The text goes on with something that is no digit, or it ends. -/
def Undigited (cs : List Char) : Prop := ∀ c rest, cs = c :: rest → c.isDigit = false

theorem undigited_cons {c : Char} (h : c.isDigit = false) (cs : List Char) :
    Undigited (c :: cs) := by
  rintro _ _ ⟨⟩
  exact h

/-- A text that starts with a digit starts with no other character. -/
theorem cons_ne_cons_of_isDigit {c d : Char} (hc : c.isDigit = true) (hd : d.isDigit = false)
    (cs ds : List Char) : c :: cs ≠ d :: ds := by
  intro h
  rw [(List.cons.inj h).1, hd] at hc
  cases hc

theorem takeWhile_digits {digits rest : List Char} (h : ∀ c ∈ digits, c.isDigit = true)
    (hrest : Undigited rest) : (digits ++ rest).takeWhile Char.isDigit = digits := by
  rw [List.takeWhile_append_of_pos h]
  cases rest with
  | nil => simp
  | cons c rest => simp [hrest c rest rfl]

theorem dropWhile_digits {digits rest : List Char} (h : ∀ c ∈ digits, c.isDigit = true)
    (hrest : Undigited rest) : (digits ++ rest).dropWhile Char.isDigit = rest := by
  rw [List.dropWhile_append_of_pos h]
  cases rest with
  | nil => rfl
  | cons c rest => simp [hrest c rest rfl]

/-! ## The number of digits -/

theorem natOfDigits_eq (cs : List Char) : natOfDigits cs = Nat.ofDigitChars 10 cs 0 :=
  Nat.ofDigitChars_eq_foldl.symm

theorem natOfDigits_natDigits (n : Nat) : natOfDigits (natDigits n) = n := by
  rw [natOfDigits_eq]
  exact Nat.ofDigitChars_ten_toDigits

theorem isDigit_of_mem_natDigits {n : Nat} {c : Char} (h : c ∈ natDigits n) : c.isDigit = true :=
  Nat.isDigit_of_mem_toDigits (by decide) (by decide) h

theorem natDigits_ne_nil (n : Nat) : natDigits n ≠ [] := Nat.toDigits_ne_nil

theorem natOfDigits_paddedDigits (width n : Nat) : natOfDigits (paddedDigits width n) = n := by
  rw [natOfDigits_eq, paddedDigits, Nat.ofDigitChars_append, Nat.ofDigitChars_replicate_zero,
    Nat.mul_zero, ← natOfDigits_eq, natOfDigits_natDigits]

theorem isDigit_of_mem_paddedDigits {width n : Nat} {c : Char} (h : c ∈ paddedDigits width n) :
    c.isDigit = true := by
  rcases List.mem_append.1 h with h | h
  · rw [List.eq_of_mem_replicate h]
    rfl
  · exact isDigit_of_mem_natDigits h

theorem length_paddedDigits (width n : Nat) :
    (paddedDigits width n).length = max width (natDigits n).length := by
  rw [paddedDigits, List.length_append, List.length_replicate]
  omega

theorem length_paddedDigits_of_lt {width n : Nat} (hwidth : 0 < width) (h : n < tenPow width) :
    (paddedDigits width n).length = width := by
  have hlength := (Nat.length_toDigits_le_iff (b := 10) (by decide) hwidth).2 h
  rw [length_paddedDigits]
  exact Nat.max_eq_left hlength

theorem paddedDigits_ne_nil (width n : Nat) : paddedDigits width n ≠ [] := by
  simp [paddedDigits, natDigits_ne_nil]

/-- Only the number 0 begins with a zero. -/
theorem head_natDigits {n : Nat} {rest : List Char} (h : natDigits n = '0' :: rest) :
    rest = [] := by
  induction n using Nat.strongRecOn generalizing rest with
  | _ n ih =>
      rw [natDigits, Nat.toDigits_eq_if (by decide)] at h
      split at h
      · exact (List.cons.inj h).2.symm
      · next hn =>
          cases hq : Nat.toDigits 10 (n / 10) with
          | nil => exact absurd hq Nat.toDigits_ne_nil
          | cons c more =>
              rw [hq] at h
              obtain ⟨rfl, -⟩ := List.cons.inj h
              obtain rfl := ih (n / 10) (by omega) hq
              -- The leading digits are a zero alone, but they denote a number above 0.
              have hzero := natOfDigits_natDigits (n / 10)
              rw [natDigits, hq] at hzero
              have : natOfDigits ['0'] = 0 := rfl
              omega

/-! ## Words -/

theorem isDigit_iff {c : Char} : c.isDigit = true ↔ '0' ≤ c ∧ c ≤ '9' := by
  rw [Char.isDigit, Bool.and_eq_true, decide_eq_true_eq, decide_eq_true_eq]
  rfl

theorem toNat_sub_lt_of_isDigit {c : Char} (h : c.isDigit = true) : c.toNat - '0'.toNat < 10 := by
  have h9 : c.toNat ≤ '9'.toNat := (isDigit_iff.1 h).2
  have : '9'.toNat = 57 := rfl
  have : '0'.toNat = 48 := rfl
  omega

theorem digitValue?_of_isDigit {c : Char} (h : c.isDigit = true) :
    digitValue? 10 c = some (c.toNat - '0'.toNat) := by
  rw [digitValue?, if_pos (isDigit_iff.1 h)]
  exact Option.filter_some_pos (decide_eq_true (toNat_sub_lt_of_isDigit h))

/-- Digits are read on top of a number as long as the whole fits into a word. -/
theorem readDigits_of_lt {digits : List Char} (hdigits : ∀ c ∈ digits, c.isDigit = true) {n : Nat}
    (h : Nat.ofDigitChars 10 digits n < twoPow 64) :
    readDigits 10 n digits = .ok (Nat.ofDigitChars 10 digits n) := by
  induction digits generalizing n with
  | nil => rfl
  | cons c digits ih =>
      rw [List.forall_mem_cons] at hdigits
      rw [Nat.ofDigitChars_cons] at h ⊢
      have hfits : 10 * n + (c.toNat - '0'.toNat) < twoPow 64 := by
        refine Nat.lt_of_le_of_lt ?_ h
        rw [Nat.ofDigitChars_eq_ofDigitChars_zero]
        exact Nat.le_add_right_of_le (Nat.le_mul_of_pos_left _ (Nat.pow_pos (by decide)))
      rw [readDigits, digitValue?_of_isDigit hdigits.1]
      simp only [if_pos hfits]
      exact ih hdigits.2 h

/-- A word is read back from its digits. -/
theorem readWord_natDigits (n : UInt64) : readWord 10 (natDigits n.toNat) = .ok n := by
  have hread : readDigits 10 0 (natDigits n.toNat) = .ok n.toNat := by
    have hvalue : Nat.ofDigitChars 10 (natDigits n.toNat) 0 = n.toNat := by
      rw [← natOfDigits_eq, natOfDigits_natDigits]
    rw [readDigits_of_lt (fun c => isDigit_of_mem_natDigits) (hvalue.symm ▸ n.toNat_lt), hvalue]
  cases hdigits : natDigits n.toNat with
  | nil => exact absurd hdigits (natDigits_ne_nil _)
  | cons c rest =>
      have hc : c.isDigit = true :=
        isDigit_of_mem_natDigits (n := n.toNat) (hdigits ▸ List.mem_cons_self)
      have hplus : c ≠ '+' := by
        rintro rfl
        cases hc
      rw [hdigits] at hread
      rw [readWord.eq_def]
      split
      · next h => cases h
      · next h => exact absurd (List.cons.inj h).1 hplus
      · next h => exact absurd (List.cons.inj h).1 hplus
      · rw [hread]
        exact congrArg Except.ok (UInt64.ofNat_toNat)

/-! ## The texts of a word -/

/-- The text is a number of decimal digits below 2 ^ 64, perhaps with a plus sign. -/
def Spells (text : List Char) (id : UInt64) : Prop :=
  ∃ digits, (text = digits ∨ text = '+' :: digits) ∧ digits ≠ [] ∧
    (∀ c ∈ digits, c.isDigit = true) ∧ Nat.ofDigitChars 10 digits 0 = id.toNat

/-- A text that spells an identifier consists of its digits and a plus sign. -/
theorem Spells.mem {text : List Char} {id : UInt64} (h : Spells text id) {c : Char}
    (hc : c ∈ text) : c = '+' ∨ c.isDigit = true := by
  obtain ⟨digits, rfl | rfl, -, hdigits, -⟩ := h
  · exact .inr (hdigits c hc)
  · rcases List.mem_cons.1 hc with rfl | hc
    · exact .inl rfl
    · exact .inr (hdigits c hc)

theorem isDigit_of_digitValue? {c : Char} {d : Nat} (h : digitValue? 10 c = some d) :
    c.isDigit = true := by
  rw [digitValue?] at h
  split at h
  · next hdigit => exact isDigit_iff.2 hdigit
  · -- Letters have values of ten and more, which are no digits of this radix.
    obtain ⟨hvalue, hlt⟩ := Option.filter_eq_some_iff.1 h
    have hlt : d < 10 := of_decide_eq_true hlt
    split at hvalue
    · have := Option.some.inj hvalue
      omega
    · split at hvalue
      · have := Option.some.inj hvalue
        omega
      · cases hvalue

theorem readDigits_eq_ok_iff {digits : List Char} {n m : Nat} (hn : n < twoPow 64) :
    readDigits 10 n digits = .ok m ↔ (∀ c ∈ digits, c.isDigit = true) ∧
      Nat.ofDigitChars 10 digits n = m ∧ m < twoPow 64 := by
  constructor
  · intro h
    induction digits generalizing n with
    | nil =>
        obtain rfl := Except.ok.inj h
        exact ⟨List.forall_mem_nil _, rfl, hn⟩
    | cons c digits ih =>
        rw [readDigits] at h
        cases hvalue : digitValue? 10 c with
        | none =>
            rw [hvalue] at h
            cases h
        | some d =>
            have hdigit := isDigit_of_digitValue? hvalue
            obtain rfl := Option.some.inj (hvalue.symm.trans (digitValue?_of_isDigit hdigit))
            simp only [hvalue] at h
            split at h
            · next hfits =>
                obtain ⟨hdigits, hm, hlt⟩ := ih hfits h
                exact ⟨List.forall_mem_cons.2 ⟨hdigit, hdigits⟩,
                  by rw [Nat.ofDigitChars_cons, hm], hlt⟩
            · cases h
  · rintro ⟨hdigits, rfl, hlt⟩
    exact readDigits_of_lt hdigits hlt

/-- What is read fits into a word. -/
theorem readDigits_lt {radix n m : Nat} {digits : List Char} (hn : n < twoPow 64)
    (h : readDigits radix n digits = .ok m) : m < twoPow 64 := by
  induction digits generalizing n with
  | nil => exact Except.ok.inj h ▸ hn
  | cons c digits ih =>
      rw [readDigits] at h
      split at h
      · cases h
      · split at h
        · next hfits => exact ih hfits h
        · cases h

theorem map_readDigits_eq_ok_iff_toNat {radix : Nat} {digits : List Char} {id : UInt64} :
    (readDigits radix 0 digits).map UInt64.ofNat = .ok id ↔
      readDigits radix 0 digits = .ok id.toNat := by
  cases hread : readDigits radix 0 digits with
  | error e => exact iff_of_false nofun nofun
  | ok m =>
      have hlt := readDigits_lt (by decide) hread
      constructor
      · intro h
        rw [← Except.ok.inj h, UInt64.toNat_ofNat_of_lt' hlt]
      · intro h
        rw [Except.ok.inj h]
        exact congrArg Except.ok UInt64.ofNat_toNat

/-- A word is read from its digits, with a plus sign or without, whatever the radix is. -/
theorem readWord_eq_ok_iff_readDigits {radix : Nat} {text : List Char} {id : UInt64} :
    readWord radix text = .ok id ↔ ∃ digits, (text = digits ∨ text = '+' :: digits) ∧
      digits ≠ [] ∧ readDigits radix 0 digits = .ok id.toNat := by
  have plus {digits : List Char} : readDigits radix 0 ('+' :: digits) ≠ .ok id.toNat := by
    rw [readDigits, show digitValue? radix '+' = none from rfl]
    exact nofun
  rw [readWord.eq_def]
  split
  · refine iff_of_false nofun ?_
    rintro ⟨digits, rfl | hplus, hne, -⟩
    · exact hne rfl
    · cases hplus
  · refine iff_of_false nofun ?_
    rintro ⟨digits, rfl | hplus, hne, hread⟩
    · exact plus hread
    · exact hne (List.cons.inj hplus).2.symm
  · next digits hne =>
      rw [map_readDigits_eq_ok_iff_toNat]
      constructor
      · intro hread
        exact ⟨digits, .inr rfl, hne, hread⟩
      · rintro ⟨digits', rfl | hplus, -, hread⟩
        · exact (plus hread).elim
        · rwa [(List.cons.inj hplus).2]
  · next hnil _ hplus =>
      rw [map_readDigits_eq_ok_iff_toNat]
      constructor
      · intro hread
        exact ⟨text, .inl rfl, hnil, hread⟩
      · rintro ⟨digits, rfl | rfl, -, hread⟩
        · exact hread
        · exact (hplus _ rfl).elim

/-- A word is read from the texts that spell it, and from no others. -/
theorem readWord_eq_ok_iff {text : List Char} {id : UInt64} :
    readWord 10 text = .ok id ↔ Spells text id := by
  have number {digits : List Char} : readDigits 10 0 digits = .ok id.toNat ↔
      (∀ c ∈ digits, c.isDigit = true) ∧ Nat.ofDigitChars 10 digits 0 = id.toNat := by
    rw [readDigits_eq_ok_iff (by decide)]
    exact and_congr_right fun _ => and_iff_left id.toNat_lt
  simp only [readWord_eq_ok_iff_readDigits, Spells, number]

end RentalDesk.Text
