import RentalDesk.Proofs.Text.Fields
import RentalDesk.Reply

/-!
# The lines of a reply as text

No line of a reply contains a line end: numbers, amounts and times have none, and free text loses
its own. What a line is can be told from its first field.
-/

namespace RentalDesk

open Text

/-- The text has no line end of its own. -/
def OneLine (cs : List Char) : Prop := ∀ c ∈ cs, c ≠ '\n' ∧ c ≠ '\r'

instance (cs : List Char) : Decidable (OneLine cs) :=
  List.decidableBAll (fun c => c ≠ '\n' ∧ c ≠ '\r') cs

/-- The text breaks neither a line nor a field. -/
def IsField (cs : List Char) : Prop :=
  ∀ c ∈ cs, c ≠ fieldSeparator ∧ c ≠ '\n' ∧ c ≠ '\r'

instance (cs : List Char) : Decidable (IsField cs) :=
  List.decidableBAll (fun c => c ≠ fieldSeparator ∧ c ≠ '\n' ∧ c ≠ '\r') cs

namespace IsField

theorem separator_not_mem {cs : List Char} (h : IsField cs) : fieldSeparator ∉ cs :=
  fun mem => (h _ mem).1 rfl

theorem oneLine {cs : List Char} (h : IsField cs) : OneLine cs := fun c hc => (h c hc).2

@[simp] theorem nil : IsField [] := by simp [IsField]

@[simp] theorem cons_iff {c : Char} {cs : List Char} :
    IsField (c :: cs) ↔ (c ≠ ';' ∧ c ≠ '\n' ∧ c ≠ '\r') ∧ IsField cs :=
  List.forall_mem_cons

@[simp] theorem append_iff {cs ds : List Char} : IsField (cs ++ ds) ↔ IsField cs ∧ IsField ds :=
  List.forall_mem_append

theorem of_subset {cs ds : List Char} (h : IsField ds) (sub : cs ⊆ ds) : IsField cs :=
  fun c hc => h c (sub hc)

theorem of_digits {cs : List Char} (h : ∀ c ∈ cs, c.isDigit = true) : IsField cs := by
  intro c hc
  have hdigit := h c hc
  refine ⟨?_, ?_, ?_⟩ <;>
  · rintro rfl
    cases hdigit

@[simp] theorem natDigits (n : Nat) : IsField (natDigits n) :=
  of_digits fun _ => isDigit_of_mem_natDigits

@[simp] theorem paddedDigits (width n : Nat) : IsField (paddedDigits width n) :=
  of_digits fun _ => isDigit_of_mem_paddedDigits

@[simp] theorem idText (id : UInt64) : IsField (idText id).toList := by
  rw [Text.idText, natText, String.toList_ofList]
  exact natDigits _

/-! ## Amounts and times -/

theorem positional (mantissa scale : Nat) : IsField (Decimal.positional mantissa scale) := by
  have hdigits := paddedDigits (scale + 1) mantissa
  rw [Decimal.positional]
  split
  · exact hdigits.of_subset (List.take_subset ..)
  · rw [append_iff, cons_iff]
    exact ⟨hdigits.of_subset (List.take_subset ..), by decide,
      hdigits.of_subset (List.drop_subset ..)⟩

theorem signText (negative : Bool) : IsField (Decimal.signText negative) := by
  cases negative <;> decide

@[simp] theorem display (d : Decimal) : IsField d.display.toList := by
  rw [Decimal.display, String.toList_ofList, append_iff]
  exact ⟨signText _, positional _ _⟩

theorem fractionText (nanos : Nat) : IsField (Instant.fractionText nanos) := by
  unfold Instant.fractionText
  (repeat' split) <;> simp

theorem yearText (year : Int) : IsField (Instant.yearText year) := by
  unfold Instant.yearText
  (repeat' split) <;> simp

@[simp] theorem lineText (i : Instant) : IsField i.lineText.toList := by
  rw [Instant.lineText, String.toList_ofList, Instant.write]
  simp only [append_iff, cons_iff]
  simp [yearText, fractionText]

/-! ## Free text -/

@[simp] theorem sanitize (s : String) : IsField (sanitize s).toList := by
  rw [RentalDesk.sanitize, String.toList_ofList]
  intro c hc
  obtain ⟨d, -, rfl⟩ := List.mem_map.1 hc
  split
  · decide
  · next h =>
      rw [not_or, not_or] at h
      exact h

end IsField

/-! ## Lines -/

/-- A record is its first field and the others with separators between them. -/
theorem toList_recordLine (word : String) (fields : List String) :
    (recordLine (word :: fields)).toList = joinFields word.toList (fields.map String.toList) := by
  induction fields generalizing word with
  | nil => simp [recordLine, joinFields]
  | cons field fields ih =>
      have rest := ih field
      rw [recordLine] at rest ⊢
      rw [String.intercalate_cons_cons, String.toList_append, String.toList_append, rest,
        List.append_assoc]
      rfl

theorem OneLine.recordLine {fields : List String} (h : ∀ field ∈ fields, IsField field.toList) :
    OneLine (recordLine fields).toList := by
  cases fields with
  | nil => decide
  | cons word fields =>
      rw [List.forall_mem_cons] at h
      rw [toList_recordLine, joinFields]
      refine List.forall_mem_append.2 ⟨h.1.oneLine, List.forall_mem_flatMap.2 ?_⟩
      refine List.forall_mem_map.2 fun field hfield => List.forall_mem_cons.2 ⟨by decide, ?_⟩
      exact (h.2 field hfield).oneLine

/-- No line of a reply contains a line end. -/
theorem Reply.oneLine_of_mem_lines {reply : Reply} {line : String} (h : line ∈ reply.lines) :
    OneLine line.toList := by
  have hend : OneLine endOfList.toList := by decide
  have hrows : ∀ {α : Type} (rows : List α) (text : α → String),
      (∀ row, OneLine (text row).toList) → ∀ line ∈ rows.map text ++ [endOfList],
        OneLine line.toList := by
    intro α rows text htext line hline
    rcases List.mem_append.1 hline with hline | hline
    · obtain ⟨row, -, rfl⟩ := List.mem_map.1 hline
      exact htext row
    · rw [List.mem_singleton.1 hline]
      exact hend
  cases reply with
  | rent status baseFee =>
      rw [List.mem_singleton.1 h]
      refine .recordLine ?_
      cases status <;> simp [RentStatus.token]
  | pay status amount =>
      rw [List.mem_singleton.1 h]
      refine .recordLine ?_
      cases status <;> simp [PayStatus.token]
  | fees rows =>
      refine hrows rows FeeView.line (fun fee => .recordLine ?_) line h
      cases hpaid : fee.paid <;> simp [FeeView.status, hpaid]
  | rentals rows =>
      refine hrows rows RentalView.line (fun view => .recordLine ?_) line h
      cases view.rental.returnedAt <;> simp
  | invoices rows =>
      refine hrows rows Invoice.line (fun invoice => .recordLine ?_) line h
      simp
  | films rows =>
      refine hrows rows Item.line (fun item => .recordLine ?_) line h
      cases item.available <;> simp
  | listFailed =>
      rcases List.mem_cons.1 h with rfl | h
      · decide
      · rw [List.mem_singleton.1 h]
        exact hend
  | error message =>
      rw [List.mem_singleton.1 h]
      refine .recordLine ?_
      simp

/-! ## First fields -/

/-- The text of a line before its first separator. -/
def firstField (line : String) : String :=
  String.ofList (line.toList.takeWhile (· ≠ fieldSeparator))

/-- A record is known by its word. -/
theorem firstField_recordLine {word : String} (h : fieldSeparator ∉ word.toList)
    (field : String) (fields : List String) :
    firstField (recordLine (word :: field :: fields)) = word := by
  have hword : ∀ c ∈ word.toList, decide (c ≠ fieldSeparator) = true := by
    intro c hc
    rw [decide_eq_true_eq]
    rintro rfl
    exact h hc
  rw [firstField, toList_recordLine, joinFields, List.takeWhile_append_of_pos hword]
  simp

end RentalDesk
