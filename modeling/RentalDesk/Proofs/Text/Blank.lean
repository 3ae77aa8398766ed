import RentalDesk.Proofs.Text.Digits
import RentalDesk.Text.Blank

/-!
# Blanks around a text

Every text is blanks, a core that neither begins nor ends with a blank, and blanks. The core is
determined by the text, and is what trimming leaves. So blanks that are put around a text make no
difference once it is trimmed.
-/

namespace RentalDesk

open Text

/-- The text consists of blanks. -/
def Blanks (cs : List Char) : Prop := ∀ c ∈ cs, isBlank c = true

/-- The text without the blanks at its ends is `core`. -/
structure Trimmed (cs core : List Char) : Prop where
  sides : ∃ before behind, Blanks before ∧ Blanks behind ∧ cs = before ++ core ++ behind
  first : ∀ c rest, core = c :: rest → isBlank c = false
  last : ∀ c rest, core = rest ++ [c] → isBlank c = false

/-- The code points with the Unicode property `White_Space`. -/
def whiteSpace : List Nat :=
  [0x09, 0x0A, 0x0B, 0x0C, 0x0D, 0x20, 0x85, 0xA0, 0x1680, 0x2000, 0x2001, 0x2002, 0x2003, 0x2004,
    0x2005, 0x2006, 0x2007, 0x2008, 0x2009, 0x200A, 0x2028, 0x2029, 0x202F, 0x205F, 0x3000]

namespace Text

theorem isBlank_iff {c : Char} : isBlank c = true ↔ c.toNat ∈ whiteSpace := by
  simp only [isBlank, blankRanges, whiteSpace, List.any_cons, List.any_nil, Bool.or_false,
    Bool.or_eq_true, Bool.and_eq_true, decide_eq_true_eq, List.mem_cons, List.not_mem_nil, or_false]
  omega

theorem isBlank_of_isDigit {c : Char} (h : c.isDigit = true) : isBlank c = false := by
  have h0 : '0'.toNat ≤ c.toNat := (isDigit_iff.1 h).1
  have h9 : c.toNat ≤ '9'.toNat := (isDigit_iff.1 h).2
  have e0 : '0'.toNat = 48 := rfl
  have e9 : '9'.toNat = 57 := rfl
  simp only [isBlank, blankRanges, List.any_cons, List.any_nil, Bool.or_false, Bool.or_eq_false_iff,
    Bool.and_eq_false_iff, decide_eq_false_iff_not]
  omega

theorem trimStart_append {before : List Char} (h : Blanks before) (cs : List Char) :
    trimStart (before ++ cs) = trimStart cs := List.dropWhile_append_of_pos h

theorem trimEnd_append {behind : List Char} (h : Blanks behind) (cs : List Char) :
    trimEnd (cs ++ behind) = trimEnd cs := by
  have reversed : ∀ c ∈ behind.reverse, isBlank c = true :=
    fun c hc => h c (List.mem_reverse.1 hc)
  rw [trimEnd, List.reverse_append, List.dropWhile_append_of_pos reversed, trimEnd]

theorem blanks_takeWhile (cs : List Char) : Blanks (cs.takeWhile isBlank) :=
  List.all_eq_true.1 List.all_takeWhile

/-- What is left of a text starts with no blank. -/
theorem not_blank_of_dropWhile {cs : List Char} {c : Char} {rest : List Char}
    (h : cs.dropWhile isBlank = c :: rest) : isBlank c = false := by
  have first := List.head?_dropWhile_not isBlank cs
  rw [h] at first
  simpa using first

/-- A text is its trimmed end and blanks behind. -/
theorem trimEnd_append_blanks (cs : List Char) :
    ∃ behind, Blanks behind ∧ cs = trimEnd cs ++ behind := by
  refine ⟨(cs.reverse.takeWhile isBlank).reverse, fun c hc => ?_, ?_⟩
  · exact blanks_takeWhile _ c (List.mem_reverse.1 hc)
  · rw [trimEnd, ← List.reverse_append, List.takeWhile_append_dropWhile, List.reverse_reverse]

theorem trimmed_trim (cs : List Char) : Trimmed cs (trim cs) := by
  obtain ⟨behind, hbehind, hcs⟩ := trimEnd_append_blanks (trimStart cs)
  refine ⟨⟨cs.takeWhile isBlank, behind, blanks_takeWhile cs, hbehind, ?_⟩, ?_, ?_⟩
  · rw [trim, List.append_assoc, ← hcs, trimStart, List.takeWhile_append_dropWhile]
  · intro c rest hcore
    rw [trim] at hcore
    rw [hcore, List.cons_append] at hcs
    exact not_blank_of_dropWhile hcs
  · intro c rest hcore
    have reversed := congrArg List.reverse hcore
    rw [trim, trimEnd, List.reverse_reverse, List.reverse_append] at reversed
    exact not_blank_of_dropWhile reversed

/-- Only one text is left when the blanks at both ends go. -/
theorem trim_of_trimmed {cs core : List Char} (h : Trimmed cs core) : trim cs = core := by
  obtain ⟨⟨before, behind, hbefore, hbehind, rfl⟩, first, last⟩ := h
  rw [trim, List.append_assoc, trimStart_append hbefore]
  cases core with
  | nil =>
      rw [List.nil_append, ← List.append_nil behind, trimStart_append hbehind]
      rfl
  | cons c rest =>
      rw [List.cons_append, trimStart_cons_of_not_blank (first c rest rfl), ← List.cons_append,
        trimEnd_append hbehind]
      rcases List.eq_nil_or_concat (c :: rest) with hnil | ⟨init, d, hconcat⟩
      · cases hnil
      · rw [List.concat_eq_append] at hconcat
        rw [hconcat, trimEnd, List.reverse_append, List.reverse_singleton, List.singleton_append,
          List.dropWhile_cons_of_neg (by rw [last d init hconcat]; exact Bool.false_ne_true),
          List.reverse_cons, List.reverse_reverse]

theorem trimmed_self {cs : List Char} (h : ∀ c ∈ cs, isBlank c = false) : Trimmed cs cs where
  sides := ⟨[], [], List.forall_mem_nil _, List.forall_mem_nil _, by simp⟩
  first c _ hcs := h c (by simp [hcs])
  last c _ hcs := h c (by simp [hcs])

theorem trim_eq_iff {cs core : List Char} : trim cs = core ↔ Trimmed cs core :=
  ⟨fun h => h ▸ trimmed_trim cs, trim_of_trimmed⟩

theorem trim_eq_nil_iff {cs : List Char} : trim cs = [] ↔ Blanks cs := by
  rw [trim_eq_iff]
  constructor
  · rintro ⟨⟨before, behind, hbefore, hbehind, rfl⟩, -, -⟩
    rw [List.append_nil]
    exact List.forall_mem_append.2 ⟨hbefore, hbehind⟩
  · intro h
    exact ⟨⟨cs, [], h, List.forall_mem_nil _, by simp⟩, nofun, by simp⟩

/-- Blanks in front and behind make no difference when they go. -/
theorem trim_blanks_append {before behind : List Char} (hbefore : Blanks before)
    (hbehind : Blanks behind) (cs : List Char) : trim (before ++ cs ++ behind) = trim cs := by
  obtain ⟨⟨before', behind', hbefore', hbehind', hcs⟩, first, last⟩ := trimmed_trim cs
  refine trim_of_trimmed ⟨⟨before ++ before', behind' ++ behind, ?_, ?_, ?_⟩, first, last⟩
  · exact List.forall_mem_append.2 ⟨hbefore, hbefore'⟩
  · exact List.forall_mem_append.2 ⟨hbehind', hbehind⟩
  · exact (congrArg (before ++ · ++ behind) hcs).trans (by simp only [List.append_assoc])

end Text

end RentalDesk
