import RentalDesk.Command
import RentalDesk.Proofs.Text.Blank

/-!
# Fields

A text with separators in it is a first field and others with a separator before each, in one way
only if no field has a separator of its own. These are the fields that it is split into. Blanks at
the ends of the text are blanks of its outer fields.
-/

namespace RentalDesk

open Text

/-- A first field and others with separators between them. -/
def joinFields (first : List Char) (fields : List (List Char)) : List Char :=
  first ++ fields.flatMap (fieldSeparator :: ·)

/-- The text is cut at all of its separators. -/
structure Cut (text first : List Char) (fields : List (List Char)) : Prop where
  joined : text = joinFields first fields
  whole : ∀ field ∈ first :: fields, fieldSeparator ∉ field

theorem splitFields_cons_of_ne {c : Char} (h : c ≠ fieldSeparator) {cs first : List Char}
    {fields : List (List Char)} (hcs : splitFields cs = first :: fields) :
    splitFields (c :: cs) = (c :: first) :: fields := by
  rw [splitFields, if_neg h, hcs]

/-- The fields are cut at the separators. -/
theorem exists_cut (text : List Char) :
    ∃ first fields, splitFields text = first :: fields ∧ Cut text first fields := by
  induction text with
  | nil => exact ⟨[], [], rfl, rfl, by simp⟩
  | cons c text ih =>
      obtain ⟨first, fields, hsplit, rfl, whole⟩ := ih
      by_cases hc : c = fieldSeparator
      · subst hc
        refine ⟨[], first :: fields, ?_, rfl, ?_⟩
        · rw [splitFields, if_pos rfl, hsplit]
        · exact List.forall_mem_cons.2 ⟨List.not_mem_nil, whole⟩
      · refine ⟨c :: first, fields, splitFields_cons_of_ne hc hsplit, rfl, ?_⟩
        rw [List.forall_mem_cons] at whole ⊢
        refine ⟨?_, whole.2⟩
        rw [List.mem_cons, not_or]
        exact ⟨fun h => hc h.symm, whole.1⟩

theorem splitFields_append {field : List Char} (h : fieldSeparator ∉ field) (cs : List Char) :
    splitFields (field ++ fieldSeparator :: cs) = field :: splitFields cs := by
  induction field with
  | nil => rw [List.nil_append, splitFields, if_pos rfl]
  | cons c field ih =>
      rw [List.mem_cons, not_or] at h
      exact splitFields_cons_of_ne (fun hc => h.1 hc.symm) (ih h.2)

theorem splitFields_of_not_mem {field : List Char} (h : fieldSeparator ∉ field) :
    splitFields field = [field] := by
  induction field with
  | nil => rfl
  | cons c field ih =>
      rw [List.mem_cons, not_or] at h
      exact splitFields_cons_of_ne (fun hc => h.1 hc.symm) (ih h.2)

namespace Cut

variable {text first : List Char} {fields : List (List Char)}

/-- There is one way to cut a text. -/
theorem splitFields_eq (h : Cut text first fields) : splitFields text = first :: fields := by
  obtain ⟨rfl, whole⟩ := h
  induction fields generalizing first with
  | nil =>
      rw [joinFields, List.flatMap_nil, List.append_nil]
      exact splitFields_of_not_mem (whole first List.mem_cons_self)
  | cons field fields ih =>
      rw [List.forall_mem_cons] at whole
      rw [joinFields, List.flatMap_cons, List.cons_append, splitFields_append whole.1]
      exact congrArg _ (ih whole.2)

theorem separator_not_mem_of_blanks {cs : List Char} (h : Blanks cs) : fieldSeparator ∉ cs :=
  fun mem => absurd (h _ mem) (by decide)

/-- Blanks in front of a text belong to its first field. -/
theorem prepend (h : Cut text first fields) {before : List Char} (blanks : Blanks before) :
    Cut (before ++ text) (before ++ first) fields := by
  obtain ⟨rfl, whole⟩ := h
  refine ⟨(List.append_assoc ..).symm, ?_⟩
  rw [List.forall_mem_cons] at whole ⊢
  refine ⟨?_, whole.2⟩
  rw [List.mem_append, not_or]
  exact ⟨separator_not_mem_of_blanks blanks, whole.1⟩

/-- Blanks behind a text belong to its last field, and go with those around the fields. -/
theorem append (h : Cut text first fields) {behind : List Char} (blanks : Blanks behind) :
    ∃ first' fields', Cut (text ++ behind) first' fields' ∧ trim first' = trim first ∧
      fields'.map trim = fields.map trim := by
  obtain ⟨rfl, whole⟩ := h
  have same (field : List Char) : trim (field ++ behind) = trim field :=
    trim_blanks_append (List.forall_mem_nil _) blanks field
  have solid {field : List Char} (h : fieldSeparator ∉ field) :
      fieldSeparator ∉ field ++ behind := by
    rw [List.mem_append, not_or]
    exact ⟨h, separator_not_mem_of_blanks blanks⟩
  rcases List.eq_nil_or_concat fields with rfl | ⟨init, last, hconcat⟩
  · refine ⟨first ++ behind, [], ⟨by simp [joinFields], ?_⟩, same first, rfl⟩
    exact List.forall_mem_singleton.2 (solid (whole first List.mem_cons_self))
  · rw [List.concat_eq_append] at hconcat
    subst hconcat
    refine ⟨first, init ++ [last ++ behind], ⟨by simp [joinFields], ?_⟩, rfl, by simp [same]⟩
    simp only [List.forall_mem_cons, List.forall_mem_append] at whole ⊢
    exact ⟨whole.1, whole.2.1, solid whole.2.2.1, List.forall_mem_nil _⟩

end Cut

/-- Whether a line is trimmed before or after it is cut makes no difference to its fields without
their blanks. -/
theorem Cut.trim_fields {line first first' : List Char} {fields fields' : List (List Char)}
    (h : Cut (trim line) first fields) (h' : Cut line first' fields') :
    trim first' = trim first ∧ fields'.map trim = fields.map trim := by
  obtain ⟨⟨before, behind, hbefore, hbehind, hline⟩, -, -⟩ := trimmed_trim line
  obtain ⟨first'', fields'', cut, hfirst, hfields⟩ := (h.prepend hbefore).append hbehind
  rw [← hline] at cut
  obtain ⟨rfl, rfl⟩ := List.cons.inj (h'.splitFields_eq.symm.trans cut.splitFields_eq)
  have front := trim_blanks_append hbefore (List.forall_mem_nil _) first
  rw [List.append_nil] at front
  exact ⟨hfirst.trans front, hfields⟩

end RentalDesk
