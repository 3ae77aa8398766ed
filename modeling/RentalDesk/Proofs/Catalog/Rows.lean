import Mathlib.Data.List.Forall2
import Mathlib.Order.Nat
import RentalDesk.Catalog.Reader
import RentalDesk.Proofs.Wire.Stream

/-!
# Rows of a catalog

Under the columns `id` and `title` a row consists of an identifier, a title, and any further fields,
all of them UTF-8 and the first two with blanks around them or without. Every other row is bad: a
field is not UTF-8, the identifier is none, or there is no second field. What is wrong with a bad
row is told by one cause, and the row says which.
-/

namespace RentalDesk.Catalog

open Text

/-! ## Identifiers -/

/-- A hexadecimal digit and its value. -/
inductive HexDigit : Char → ℕ → Prop
  | decimal {c : Char} : '0' ≤ c ∧ c ≤ '9' → HexDigit c (c.toNat - '0'.toNat)
  | lower {c : Char} : 'a' ≤ c ∧ c ≤ 'f' → HexDigit c (c.toNat - 'a'.toNat + 10)
  | upper {c : Char} : 'A' ≤ c ∧ c ≤ 'F' → HexDigit c (c.toNat - 'A'.toNat + 10)

/-- The text is a number of hexadecimal digits below 2 ^ 64, perhaps with a plus sign. -/
def SpellsHex (text : List Char) (id : ItemId) : Prop :=
  ∃ digits values, (text = digits ∨ text = '+' :: digits) ∧ digits ≠ [] ∧
    List.Forall₂ HexDigit digits values ∧ values.foldl (fun n d => 16 * n + d) 0 = id.toNat

/-- The text is an identifier: decimal digits, or hexadecimal digits behind `0x`. -/
inductive Denotes : List Char → ItemId → Prop
  | decimal {text : List Char} {id : ItemId} : Spells text id → Denotes text id
  | hex {text : List Char} {id : ItemId} : SpellsHex text id → Denotes ('0' :: 'x' :: text) id

theorem digitValue?_sixteen_iff {c : Char} {d : ℕ} : digitValue? 16 c = some d ↔ HexDigit c d := by
  have le_iff (a b : Char) : a ≤ b ↔ a.toNat ≤ b.toNat := Iff.rfl
  have zero : '0'.toNat = 48 := rfl
  have nine : '9'.toNat = 57 := rfl
  have lowerA : 'a'.toNat = 97 := rfl
  have lowerF : 'f'.toNat = 102 := rfl
  have lowerZ : 'z'.toNat = 122 := rfl
  have upperA : 'A'.toNat = 65 := rfl
  have upperF : 'F'.toNat = 70 := rfl
  have upperZ : 'Z'.toNat = 90 := rfl
  rw [digitValue?]
  constructor
  · intro h
    obtain ⟨hvalue, hlt⟩ := Option.filter_eq_some_iff.1 h
    have hlt : d < 16 := of_decide_eq_true hlt
    split at hvalue
    · next hdigit =>
        rw [← Option.some.inj hvalue]
        exact .decimal hdigit
    · split at hvalue
      · next hletter =>
          have := Option.some.inj hvalue
          subst this
          refine .lower ⟨hletter.1, (le_iff _ _).2 ?_⟩
          omega
      · split at hvalue
        · next hletter =>
            have := Option.some.inj hvalue
            subst this
            refine .upper ⟨hletter.1, (le_iff _ _).2 ?_⟩
            omega
        · cases hvalue
  · intro h
    cases h with
    | decimal h =>
        rw [if_pos h, Option.filter_some_pos]
        simp only [le_iff] at h
        exact decide_eq_true (by omega)
    | lower h =>
        simp only [le_iff] at h ⊢
        rw [if_neg (by omega), if_pos (by omega), Option.filter_some_pos]
        exact decide_eq_true (by omega)
    | upper h =>
        simp only [le_iff] at h ⊢
        rw [if_neg (by omega), if_neg (by omega), if_pos (by omega), Option.filter_some_pos]
        exact decide_eq_true (by omega)

theorem le_foldl_digits {radix : ℕ} (hradix : 0 < radix) (values : List ℕ) (n : ℕ) :
    n ≤ values.foldl (fun n d => radix * n + d) n := by
  induction values generalizing n with
  | nil => exact le_rfl
  | cons d values ih =>
      calc n ≤ radix * n := Nat.le_mul_of_pos_left n hradix
        _ ≤ radix * n + d := Nat.le_add_right ..
        _ ≤ _ := ih _

/-- Digits of a radix are read as the number that their values make up. -/
theorem readDigits_eq_ok_iff_values {radix : ℕ} (hradix : 0 < radix) {digits : List Char}
    {n m : ℕ} (hm : m < twoPow 64) :
    readDigits radix n digits = .ok m ↔ ∃ values,
      List.Forall₂ (fun c d => digitValue? radix c = some d) digits values ∧
        values.foldl (fun n d => radix * n + d) n = m := by
  induction digits generalizing n with
  | nil => simp [readDigits]
  | cons c digits ih =>
      rw [readDigits]
      cases hvalue : digitValue? radix c with
      | none =>
          refine iff_of_false (fun h => by cases h) ?_
          rintro ⟨_, values, -⟩
          cases values with
          | cons head _ => cases hvalue.symm.trans head
      | some d =>
          have values_cons : (∃ values,
              List.Forall₂ (fun c d => digitValue? radix c = some d) (c :: digits) values ∧
                values.foldl (fun n d => radix * n + d) n = m) ↔ ∃ values,
              List.Forall₂ (fun c d => digitValue? radix c = some d) digits values ∧
                values.foldl (fun n d => radix * n + d) (radix * n + d) = m := by
            simp [List.forall₂_cons_left_iff, hvalue]
          rw [values_cons]
          dsimp only
          split
          · exact ih
          · next large =>
              refine iff_of_false (fun h => by cases h) ?_
              rintro ⟨values, -, rfl⟩
              exact large ((le_foldl_digits hradix values _).trans_lt hm)

theorem readWord_sixteen_eq_ok_iff {text : List Char} {id : ItemId} :
    readWord 16 text = .ok id ↔ SpellsHex text id := by
  simp only [readWord_eq_ok_iff_readDigits, SpellsHex, digitValue?_sixteen_iff,
    readDigits_eq_ok_iff_values (show 0 < 16 by decide) id.toNat_lt, exists_and_left]

/-- Identifiers are read from the texts that denote them, and from no others. -/
theorem readItemId_eq_ok_iff {text : String} {id : ItemId} :
    readItemId text = .ok id ↔ Denotes text.toList id := by
  rw [readItemId]
  split
  · next digits htext =>
      rw [readWord_sixteen_eq_ok_iff, htext]
      constructor
      · exact .hex
      · intro h
        cases h with
        | decimal h =>
            rcases h.mem (List.mem_cons_of_mem _ List.mem_cons_self) with hx | hx <;> cases hx
        | hex h => exact h
  · next digits hdecimal =>
      rw [readWord_eq_ok_iff]
      constructor
      · exact .decimal
      · intro h
        generalize text.toList = cs at h hdecimal ⊢
        cases h with
        | decimal h => exact h
        | hex h => exact (hdecimal _ rfl).elim

theorem Denotes.unique {text : List Char} {id id' : ItemId} (h : Denotes text id)
    (h' : Denotes text id') : id = id' := by
  rw [← String.toList_ofList (l := text), ← readItemId_eq_ok_iff] at h h'
  exact Except.ok.inj (h.symm.trans h')

/-! ## Fields -/

theorem utf8_eq_flatMap (cs : List Char) : utf8 cs = cs.flatMap String.utf8EncodeChar := by
  rw [utf8, String.toByteArray_ofList, List.utf8Encode]
  simp

theorem utf8_injective {cs cs' : List Char} (h : utf8 cs = utf8 cs') : cs = cs' := by
  rw [← lineText?_eq_some_iff, lineText?_utf8] at h
  exact Option.some.inj h

theorem fieldText?_eq_some_iff {field : Field} {text : String} :
    fieldText? field = some text ↔ ∃ cs, field = utf8 cs ∧ trim cs = text.toList := by
  have hline : fieldText? field =
      (lineText? field).map fun cs => String.ofList (trim cs) := by
    rw [lineText?, fieldText?, Option.map_map]
    rfl
  have hchars (cs : List Char) : String.ofList cs = text ↔ cs = text.toList := by
    rw [← String.toList_inj, String.toList_ofList]
  simp only [hline, Option.map_eq_some_iff, lineText?_eq_some_iff, hchars]

/-- The field is UTF-8. -/
def IsText (field : Field) : Prop := ∃ cs, field = utf8 cs

theorem fieldText?_eq_none_iff {field : Field} : fieldText? field = none ↔ ¬ IsText field := by
  constructor
  · rintro h ⟨cs, hfield⟩
    have read : fieldText? field = some (String.ofList (trim cs)) :=
      fieldText?_eq_some_iff.2 ⟨cs, hfield, String.toList_ofList.symm⟩
    cases h.symm.trans read
  · intro h
    by_contra read
    obtain ⟨text, htext⟩ := Option.ne_none_iff_exists'.1 read
    obtain ⟨cs, hfield, -⟩ := fieldText?_eq_some_iff.1 htext
    exact h ⟨cs, hfield⟩

theorem fieldTexts_eq_ok_iff {fields : List Field} {texts : List String} {n : ℕ} :
    fieldTexts n fields = .ok texts ↔
      List.Forall₂ (fun field text => fieldText? field = some text) fields texts := by
  induction fields generalizing n texts with
  | nil => simp [fieldTexts, eq_comm]
  | cons field fields ih =>
      rw [fieldTexts, List.forall₂_cons_left_iff]
      cases hfield : fieldText? field with
      | none => simp
      | some text =>
          dsimp only
          cases htexts : fieldTexts (n + 1) fields with
          | error p =>
              refine iff_of_false nofun ?_
              rintro ⟨t, more, -, hmore, -⟩
              cases htexts.symm.trans (ih.2 hmore)
          | ok more =>
              have hmore := ih.1 htexts
              constructor
              · intro h
                exact ⟨text, more, rfl, hmore, (Except.ok.inj h).symm⟩
              · rintro ⟨t, more', ht, hmore', rfl⟩
                rw [← Option.some.inj ht, Except.ok.inj (htexts.symm.trans (ih.2 hmore'))]
                rfl

theorem isText_of_fieldText? {field : Field} {text : String} (h : fieldText? field = some text) :
    IsText field := by
  obtain ⟨cs, hfield, -⟩ := fieldText?_eq_some_iff.1 h
  exact ⟨cs, hfield⟩

theorem isText_of_forall₂ {fields : List Field} {texts : List String}
    (h : List.Forall₂ (fun field text => fieldText? field = some text) fields texts) :
    ∀ field ∈ fields, IsText field := by
  induction h with
  | nil => exact List.forall_mem_nil _
  | cons htext _ ih => exact List.forall_mem_cons.2 ⟨isText_of_fieldText? htext, ih⟩

/-- The first field that is not UTF-8 is told by its number. -/
theorem exists_of_fieldTexts {fields : List Field} {n position : ℕ}
    (h : fieldTexts n fields = .error position) : ∃ before field after,
      fields = before ++ field :: after ∧ (∀ f ∈ before, IsText f) ∧ ¬ IsText field ∧
        position = n + before.length := by
  induction fields generalizing n position with
  | nil => cases h
  | cons field fields ih =>
      rw [fieldTexts] at h
      cases hfield : fieldText? field with
      | none =>
          simp only [hfield, Except.error.injEq] at h
          exact ⟨[], field, fields, rfl, List.forall_mem_nil _, fieldText?_eq_none_iff.1 hfield,
            h.symm⟩
      | some text =>
          simp only [hfield] at h
          cases htexts : fieldTexts (n + 1) fields with
          | ok texts =>
              rw [htexts] at h
              cases h
          | error p =>
              rw [htexts] at h
              obtain ⟨before, wrong, after, rfl, hbefore, hwrong, rfl⟩ := ih htexts
              refine ⟨field :: before, wrong, after, rfl,
                List.forall_mem_cons.2 ⟨isText_of_fieldText? hfield, hbefore⟩, hwrong, ?_⟩
              rw [← Except.error.inj h, List.length_cons]
              omega

/-! ## Rows -/

/-- The row is good and has this identifier and this title. -/
def IsRow (fields : List Field) (entry : Entry) : Prop :=
  ∃ id title extra idText, fields = utf8 id :: utf8 title :: extra ∧
    (∀ field ∈ extra, IsText field) ∧ Trimmed id idText ∧ Denotes idText entry.id ∧
    Trimmed title entry.title.toList

/-- The row is bad: a field is not UTF-8, there are less than two fields, or the first one is no
identifier. -/
def IsBad (fields : List Field) : Prop :=
  (∃ field ∈ fields, ¬ IsText field) ∨ fields.length < 2 ∨
    ∃ id others idText, fields = utf8 id :: others ∧ Trimmed id idText ∧
      ∀ n, ¬ Denotes idText n

/-- What is wrong with a row, and the cause that tells it. -/
inductive Flawed : List Field → CatalogCause → Prop
  | encoding {before after : List Field} {field : Field} : (∀ f ∈ before, IsText f) →
      ¬ IsText field → Flawed (before ++ field :: after) (.encoding before.length)
  | number {id idText : List Char} {others : List Field} {cause : WordError} :
      (∀ f ∈ others, IsText f) → Trimmed id idText → (∀ n, ¬ Denotes idText n) →
      Flawed (utf8 id :: others) (.number 0 cause)
  | endOfRow {id idText : List Char} {n : ItemId} : Trimmed id idText → Denotes idText n →
      Flawed [utf8 id] .endOfRow

/-- The columns of a catalog. -/
abbrev columns : List String := ["id", "title"]

/-- The identifier is read first, so that a wrong one is told and not the end of the row. -/
theorem readColumns_cons (text : String) (texts : List String) :
    readColumns 0 none none columns (text :: texts) =
      (idField 0 text).bind fun id =>
        match texts with
        | [] => .error .endOfRow
        | title :: _ => .ok ⟨id, title⟩ := by
  cases hid : idField 0 text with
  | error cause => simp [readColumns, hid, Except.bind]
  | ok id => cases texts <;> simp [readColumns, hid, Except.bind]

/-- A row has one identifier and one title. -/
theorem IsRow.unique {fields : List Field} {entry entry' : Entry} (h : IsRow fields entry)
    (h' : IsRow fields entry') : entry = entry' := by
  obtain ⟨id, title, extra, idText, hfields, -, hid, hdenotes, htitle⟩ := h
  obtain ⟨id', title', extra', idText', hfields', -, hid', hdenotes', htitle'⟩ := h'
  obtain ⟨sameId, hrest⟩ := List.cons.inj (hfields.symm.trans hfields')
  obtain rfl := utf8_injective sameId
  obtain rfl := utf8_injective (List.cons.inj hrest).1
  rw [← trim_of_trimmed hid] at hdenotes
  rw [← trim_of_trimmed hid'] at hdenotes'
  have titles : entry.title = entry'.title :=
    String.toList_inj.1 ((trim_of_trimmed htitle).symm.trans (trim_of_trimmed htitle'))
  cases entry
  cases entry'
  exact congr (congrArg Entry.mk (hdenotes.unique hdenotes')) titles

theorem Flawed.isBad {fields : List Field} {cause : CatalogCause} (h : Flawed fields cause) :
    IsBad fields := by
  cases h with
  | encoding _ hfield => exact .inl ⟨_, by simp, hfield⟩
  | number _ trimmed none => exact .inr (.inr ⟨_, _, _, rfl, trimmed, none⟩)
  | endOfRow => exact .inr (.inl (Nat.lt_succ_self 1))

/-- No row is good and bad. -/
theorem IsRow.not_isBad {fields : List Field} {entry : Entry} (h : IsRow fields entry) :
    ¬ IsBad fields := by
  obtain ⟨id, title, extra, idText, rfl, hextra, hid, hdenotes, -⟩ := h
  rintro (⟨field, hfield, notText⟩ | short | ⟨id', others, idText', hfields, hid', none⟩)
  · have texts : ∀ field ∈ utf8 id :: utf8 title :: extra, IsText field :=
      List.forall_mem_cons.2 ⟨⟨id, rfl⟩, List.forall_mem_cons.2 ⟨⟨title, rfl⟩, hextra⟩⟩
    exact notText (texts field hfield)
  · simp only [List.length_cons] at short
    omega
  · rw [← utf8_injective (List.cons.inj hfields).1] at hid'
    rw [← trim_of_trimmed hid', trim_of_trimmed hid] at none
    exact none entry.id hdenotes

/-- Every row is good and is read, or it is bad and what is wrong with it is told. -/
theorem readRow_cases {fields : List Field} (hne : fields ≠ []) :
    (∃ entry, IsRow fields entry ∧ readRow (some columns) fields = .ok entry) ∨
      ∃ cause, Flawed fields cause ∧ readRow (some columns) fields = .error cause := by
  rw [readRow]
  cases htexts : fieldTexts 0 fields with
  | error position =>
      obtain ⟨before, field, after, rfl, hbefore, hfield, rfl⟩ := exists_of_fieldTexts htexts
      refine .inr ⟨_, .encoding hbefore hfield, ?_⟩
      rw [Nat.zero_add]
  | ok texts =>
      obtain ⟨field, fields, rfl⟩ := List.exists_cons_of_ne_nil hne
      obtain ⟨text, texts, htext, hrest, rfl⟩ :=
        List.forall₂_cons_left_iff.1 (fieldTexts_eq_ok_iff.1 htexts)
      obtain ⟨cs, rfl, hcs⟩ := fieldText?_eq_some_iff.1 htext
      have trimmed : Trimmed cs text.toList := hcs ▸ trimmed_trim cs
      simp only [readColumns_cons]
      cases hid : readItemId text with
      | error wrong =>
          have none : ∀ id, ¬ Denotes text.toList id := by
            intro id denotes
            cases hid.symm.trans (readItemId_eq_ok_iff.2 denotes)
          exact .inr ⟨.number 0 wrong, .number (isText_of_forall₂ hrest) trimmed none,
            by simp [idField, hid, Except.bind]⟩
      | ok id =>
          have denotes := readItemId_eq_ok_iff.1 hid
          cases hrest with
          | nil => exact .inr ⟨.endOfRow, .endOfRow trimmed denotes,
              by simp [idField, hid, Except.bind]⟩
          | @cons field title _ _ htitle hextra =>
              obtain ⟨titleText, rfl, htitleText⟩ := fieldText?_eq_some_iff.1 htitle
              exact .inl ⟨⟨id, title⟩, ⟨cs, titleText, _, text.toList, rfl,
                isText_of_forall₂ hextra, trimmed, denotes, htitleText ▸ trimmed_trim titleText⟩,
                by simp [idField, hid, Except.bind]⟩

theorem readRow_of_isRow {fields : List Field} {entry : Entry} (h : IsRow fields entry) :
    readRow (some columns) fields = .ok entry := by
  have hne : fields ≠ [] := by
    obtain ⟨id, title, extra, -, rfl, -⟩ := h
    exact List.cons_ne_nil _ _
  rcases readRow_cases hne with ⟨entry', h', read⟩ | ⟨cause, flawed, -⟩
  · rw [read, h.unique h']
  · exact absurd flawed.isBad h.not_isBad

/-- For a bad row something that is wrong with it is told. -/
theorem exists_readRow_of_isBad {fields : List Field} (hne : fields ≠ []) (h : IsBad fields) :
    ∃ cause, Flawed fields cause ∧ readRow (some columns) fields = .error cause :=
  (readRow_cases hne).resolve_left fun ⟨_, row, _⟩ => row.not_isBad h

end RentalDesk.Catalog
