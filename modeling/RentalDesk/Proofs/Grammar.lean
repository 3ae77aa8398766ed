import Mathlib.Data.List.Forall2
import RentalDesk.Proofs.Text.Fields

/-!
# The grammar of request lines

A request line is a verb and identifiers, separated by semicolons, each with any blanks around it.
The grammar is stated without the reader, by what a line is put together from. The main statement
says that the reader accepts exactly the lines of the grammar, each as the request that it spells,
and that it refuses every other line for one reason: the first one, from the whole line to its
single fields, that applies.
-/

namespace RentalDesk

open Text

/-! ## Identifiers in fields -/

/-- The field is an identifier with any blanks around it. -/
def IsId (field : List Char) (id : UInt64) : Prop :=
  ∃ before text behind, Blanks before ∧ Spells text id ∧ Blanks behind ∧
    field = before ++ text ++ behind

theorem Text.Spells.trim_eq {text : List Char} {id : UInt64} (h : Spells text id) :
    trim text = text := by
  have solid : ∀ c ∈ text, isBlank c = false := by
    intro c hc
    rcases h.mem hc with rfl | hdigit
    · decide
    · exact isBlank_of_isDigit hdigit
  refine trim_of_trimmed ⟨⟨[], [], List.forall_mem_nil _, List.forall_mem_nil _, by simp⟩, ?_, ?_⟩
  · rintro c rest rfl
    exact solid c List.mem_cons_self
  · rintro c rest rfl
    exact solid c (by simp)

/-- A field is an identifier if the word is read from it without its blanks. -/
theorem isId_iff {field : List Char} {id : UInt64} :
    IsId field id ↔ readWord 10 (trim field) = .ok id := by
  rw [readWord_eq_ok_iff]
  constructor
  · rintro ⟨before, text, behind, hbefore, spells, hbehind, rfl⟩
    rwa [trim_blanks_append hbefore hbehind, spells.trim_eq]
  · intro spells
    obtain ⟨⟨before, behind, hbefore, hbehind, hfield⟩, -, -⟩ := trimmed_trim field
    exact ⟨before, trim field, behind, hbefore, spells, hbehind, hfield⟩

/-! ## Verbs and their arguments -/

theorem Verb.ofText?_eq_some_iff {word : String} {verb : Verb} :
    Verb.ofText? word = some verb ↔ word = verb.toText := by
  constructor
  · intro h
    have found := List.find?_some h
    exact (beq_iff_eq.1 found).symm
  · rintro rfl
    cases verb <;> decide

theorem Verb.ofText?_eq_none_iff {word : String} :
    Verb.ofText? word = none ↔ ∀ verb : Verb, word ≠ verb.toText := by
  rw [Option.eq_none_iff_forall_ne_some]
  exact forall_congr' fun verb => not_congr Verb.ofText?_eq_some_iff

/-- Reads the arguments of a verb from left to right. -/
def readIds : List ArgumentName → List (List Char) → Except CommandError (List UInt64)
  | name :: names, field :: fields => do
    let id ← readId name field
    let ids ← readIds names fields
    return id :: ids
  | _, _ => .ok []

theorem readId_eq_ok_iff {name : ArgumentName} {field : List Char} {id : UInt64} :
    readId name field = .ok id ↔ IsId field id := by
  rw [isId_iff, readId]
  cases readWord 10 (trim field) with
  | ok id' => simp only [Except.ok.injEq]
  | error e => simp only [reduceCtorEq]

theorem readId_of_not_isId {name : ArgumentName} {field : List Char}
    (h : ∀ id, ¬ IsId field id) :
    readId name field = .error (.badId name (String.ofList field)) := by
  rw [readId]
  cases hread : readWord 10 (trim field) with
  | ok id => exact absurd (isId_iff.2 hread) (h id)
  | error e => rfl

theorem readIds_of_isId {names : List ArgumentName} {fields : List (List Char)} {ids : List UInt64}
    (h : List.Forall₂ IsId fields ids) (length : fields.length = names.length) :
    readIds names fields = .ok ids := by
  induction h generalizing names with
  | nil =>
      cases names with
      | nil => rfl
      | cons name names => cases length
  | @cons field id fields ids isId _ ih =>
      cases names with
      | nil => cases length
      | cons name names =>
          rw [readIds, readId_eq_ok_iff.2 isId, ih (Nat.succ.inj length)]
          rfl

/-- The first field that is no identifier, in the place of its argument. -/
structure FirstBad (names : List ArgumentName) (fields : List (List Char)) (name : ArgumentName)
    (field : List Char) : Prop where
  split : ∃ before behind, fields = before ++ field :: behind ∧
    (∀ other ∈ before, ∃ id, IsId other id) ∧ names[before.length]? = some name
  bad : ∀ id, ¬ IsId field id

theorem readIds_of_firstBad {names : List ArgumentName} {fields : List (List Char)}
    {name : ArgumentName} {field : List Char} (h : FirstBad names fields name field) :
    readIds names fields = .error (.badId name (String.ofList field)) := by
  obtain ⟨⟨before, behind, rfl, good, hname⟩, bad⟩ := h
  induction before generalizing names with
  | nil =>
      cases names with
      | nil => cases hname
      | cons name' names =>
          obtain rfl := Option.some.inj hname
          rw [List.nil_append, readIds, readId_of_not_isId bad]
          rfl
  | cons other before ih =>
      rw [List.forall_mem_cons] at good
      obtain ⟨⟨id, isId⟩, good⟩ := good
      cases names with
      | nil => cases hname
      | cons name' names =>
          rw [List.cons_append, readIds, readId_eq_ok_iff.2 isId, ih good hname]
          rfl

/-- As many fields as arguments are identifiers, or there is a first one that is none. -/
theorem isId_or_firstBad (names : List ArgumentName) (fields : List (List Char))
    (length : fields.length = names.length) :
    (∃ ids, List.Forall₂ IsId fields ids) ∨ ∃ name field, FirstBad names fields name field := by
  induction fields generalizing names with
  | nil => exact .inl ⟨[], .nil⟩
  | cons field fields ih =>
      cases names with
      | nil => cases length
      | cons name names =>
          by_cases isId : ∃ id, IsId field id
          · obtain ⟨id, hid⟩ := isId
            rcases ih names (Nat.succ.inj length) with ⟨ids, good⟩ | ⟨name', field', split, bad⟩
            · exact .inl ⟨id :: ids, .cons hid good⟩
            · obtain ⟨before, behind, rfl, good, hname⟩ := split
              refine .inr ⟨name', field', ⟨field :: before, behind, rfl, ?_, hname⟩, bad⟩
              exact List.forall_mem_cons.2 ⟨⟨id, hid⟩, good⟩
          · refine .inr ⟨name, field, ⟨[], fields, rfl, List.forall_mem_nil _, rfl⟩, ?_⟩
            exact fun id hid => isId ⟨id, hid⟩

namespace Command

theorem eq_of_verb_of_ids {c c' : Command} (verb : c.verb = c'.verb) (ids : c.ids = c'.ids) :
    c = c' := by
  cases c <;> cases c' <;> simp_all [Command.verb, Command.ids]

theorem length_ids (c : Command) : c.ids.length = c.verb.arguments.length := by
  cases c <;> rfl

/-- A verb with too few or too many fields. -/
theorem ofFields_of_length_ne {verb : Verb} {fields : List (List Char)}
    (h : fields.length ≠ verb.arguments.length) :
    ofFields verb fields = .error (.arity verb fields.length) := by
  rw [ofFields.eq_def]
  split
  all_goals first | rfl | exact absurd rfl h

/-- With as many fields as arguments the request is that of the identifiers. -/
theorem ofFields_map {verb : Verb} {fields : List (List Char)}
    (h : fields.length = verb.arguments.length) :
    (ofFields verb fields).map (fun c => (c.verb, c.ids)) =
      (readIds verb.arguments fields).map (verb, ·) := by
  cases verb with
  | rent =>
      obtain ⟨item, renter, rfl⟩ := List.length_eq_two.1 h
      simp only [ofFields, readIds, Verb.arguments]
      cases readId .itemId item <;> cases readId .renterId renter <;> rfl
  | pay =>
      obtain ⟨fee, renter, rfl⟩ := List.length_eq_two.1 h
      simp only [ofFields, readIds, Verb.arguments]
      cases readId .feeId fee <;> cases readId .renterId renter <;> rfl
  | listFees | listRentals | listInvoices =>
      obtain ⟨renter, rfl⟩ := List.length_eq_one_iff.1 h
      simp only [ofFields, readIds, Verb.arguments]
      cases readId .renterId renter <;> rfl
  | listFilms =>
      obtain rfl := List.length_eq_zero_iff.1 h
      rfl

theorem ofFields_of_isId {c : Command} {fields : List (List Char)}
    (h : List.Forall₂ IsId fields c.ids) : ofFields c.verb fields = .ok c := by
  have length : fields.length = c.verb.arguments.length := h.length_eq.trans c.length_ids
  have map := ofFields_map length
  rw [readIds_of_isId h length] at map
  cases hc : ofFields c.verb fields with
  | error e =>
      rw [hc] at map
      cases map
  | ok c' =>
      rw [hc] at map
      obtain ⟨verb, ids⟩ := Prod.mk.inj (Except.ok.inj map)
      rw [eq_of_verb_of_ids verb ids]

theorem ofFields_of_firstBad {verb : Verb} {fields : List (List Char)} {name : ArgumentName}
    {field : List Char} (length : fields.length = verb.arguments.length)
    (h : FirstBad verb.arguments fields name field) :
    ofFields verb fields = .error (.badId name (String.ofList field)) := by
  have map := ofFields_map length
  rw [readIds_of_firstBad h] at map
  cases hc : ofFields verb fields with
  | error e =>
      rw [hc] at map
      exact congrArg _ (Except.error.inj map)
  | ok c =>
      rw [hc] at map
      cases map

/-- Identifiers for all arguments of a verb make up a request of this verb. -/
theorem exists_of_isId {verb : Verb} {fields : List (List Char)} {ids : List UInt64}
    (length : fields.length = verb.arguments.length) (h : List.Forall₂ IsId fields ids) :
    ∃ c : Command, c.verb = verb ∧ c.ids = ids := by
  have map := ofFields_map length
  rw [readIds_of_isId h length] at map
  cases hc : ofFields verb fields with
  | error e =>
      rw [hc] at map
      cases map
  | ok c =>
      rw [hc] at map
      obtain ⟨verb, ids⟩ := Prod.mk.inj (Except.ok.inj map)
      exact ⟨c, verb, ids⟩

/-! ## Lines -/

/-- A word and identifiers with separators between them, each with any blanks around it. -/
def IsLine (word : String) (ids : List UInt64) (line : List Char) : Prop :=
  ∃ before behind fields, Blanks before ∧ Blanks behind ∧ List.Forall₂ IsId fields ids ∧
    line = joinFields (before ++ word.toList ++ behind) fields

/-- The lines of a request. -/
inductive Written : Command → List Char → Prop
  | rent {item : ItemId} {renter : RenterId} {line : List Char}
      (isLine : IsLine "RENT" [item, renter] line) : Written (.rent item renter) line
  | pay {fee : FeeId} {renter : RenterId} {line : List Char}
      (isLine : IsLine "PAY" [fee, renter] line) : Written (.pay fee renter) line
  | listFees {renter : RenterId} {line : List Char} (isLine : IsLine "LIST_FEES" [renter] line) :
      Written (.listFees renter) line
  | listRentals {renter : RenterId} {line : List Char}
      (isLine : IsLine "LIST_RENTALS" [renter] line) : Written (.listRentals renter) line
  | listInvoices {renter : RenterId} {line : List Char}
      (isLine : IsLine "LIST_INVOICES" [renter] line) : Written (.listInvoices renter) line
  | listFilms {line : List Char} (isLine : IsLine "LIST_FILMS" [] line) :
      Written .listFilms line

/-- The reason why a line is no request. A line is trimmed before it is cut. -/
inductive Refused (line : List Char) : CommandError → Prop
  | empty (blanks : Blanks line) : Refused line .empty
  | unknownVerb {body first word : List Char} {fields : List (List Char)} (notBlank : ¬ Blanks line)
      (trimmed : Trimmed line body) (cut : Cut body first fields) (word_eq : Trimmed first word)
      (unknown : ∀ verb : Verb, word ≠ verb.toText.toList) :
      Refused line (.unknownVerb (String.ofList word))
  | arity {body first : List Char} {fields : List (List Char)} {verb : Verb}
      (trimmed : Trimmed line body) (cut : Cut body first fields)
      (word_eq : Trimmed first verb.toText.toList)
      (length : fields.length ≠ verb.arguments.length) : Refused line (.arity verb fields.length)
  | badId {body first field : List Char} {fields : List (List Char)} {verb : Verb}
      {name : ArgumentName} (trimmed : Trimmed line body) (cut : Cut body first fields)
      (word_eq : Trimmed first verb.toText.toList)
      (length : fields.length = verb.arguments.length)
      (firstBad : FirstBad verb.arguments fields name field) :
      Refused line (.badId name (String.ofList field))

theorem written_iff {c : Command} {line : List Char} :
    Written c line ↔ IsLine c.verb.toText c.ids line := by
  constructor
  · intro written
    cases written <;> assumption
  · intro isLine
    cases c with
    | rent => exact .rent isLine
    | pay => exact .pay isLine
    | listFees => exact .listFees isLine
    | listRentals => exact .listRentals isLine
    | listInvoices => exact .listInvoices isLine
    | listFilms => exact .listFilms isLine

theorem parse_of_blanks {line : List Char} (h : Blanks line) : parse line = .error .empty := by
  rw [parse, trim_eq_nil_iff.2 h]
  rfl

theorem trim_toText (verb : Verb) : trim verb.toText.toList = verb.toText.toList := by
  cases verb <;> decide

theorem separator_not_mem_toText (verb : Verb) : fieldSeparator ∉ verb.toText.toList := by
  cases verb <;> decide

section

variable {line first : List Char} {fields : List (List Char)} (cut : Cut (trim line) first fields)

include cut

/-- A line with a verb is not blank. -/
theorem not_blanks_of_verb {verb : Verb} (word : trim first = verb.toText.toList) :
    ¬ Blanks line := by
  intro blanks
  have joined := cut.joined
  rw [trim_eq_nil_iff.2 blanks] at joined
  rw [(List.append_eq_nil_iff.1 joined.symm).1] at word
  cases verb <;> cases word

theorem parse_of_verb {verb : Verb} (word : trim first = verb.toText.toList) :
    parse line = ofFields verb fields := by
  have full : (trim line).isEmpty = false := by
    rw [List.isEmpty_eq_false_iff]
    exact fun hnil => not_blanks_of_verb cut word (trim_eq_nil_iff.1 hnil)
  have known : Verb.ofText? (String.ofList verb.toText.toList) = some verb :=
    Verb.ofText?_eq_some_iff.2 String.ofList_toList
  simp only [parse, full, cut.splitFields_eq, word, known, Bool.false_eq_true, if_false]

theorem parse_of_unknown (notBlank : ¬ Blanks line)
    (unknown : ∀ verb : Verb, trim first ≠ verb.toText.toList) :
    parse line = .error (.unknownVerb (String.ofList (trim first))) := by
  have full : (trim line).isEmpty = false := by
    rw [List.isEmpty_eq_false_iff]
    exact fun hnil => notBlank (trim_eq_nil_iff.1 hnil)
  have none : Verb.ofText? (String.ofList (trim first)) = none :=
    Verb.ofText?_eq_none_iff.2 fun verb h => unknown verb (by rw [← h, String.toList_ofList])
  simp only [parse, full, cut.splitFields_eq, none, Bool.false_eq_true, if_false]

end

/-- Blanks around fields do not matter to what they are. -/
theorem forall₂_isId_iff {fields : List (List Char)} {ids : List UInt64} :
    List.Forall₂ IsId fields ids ↔
      List.Forall₂ (fun text id => readWord 10 text = .ok id) (fields.map trim) ids := by
  have same : IsId = fun field id => readWord 10 (trim field) = .ok id :=
    funext fun _ => funext fun _ => propext isId_iff
  rw [same, List.forall₂_map_left_iff]

theorem separator_not_mem_of_isId {field : List Char} {id : UInt64} (h : IsId field id) :
    fieldSeparator ∉ field := by
  obtain ⟨before, text, behind, hbefore, spells, hbehind, rfl⟩ := h
  simp only [List.mem_append, not_or]
  refine ⟨⟨Cut.separator_not_mem_of_blanks hbefore, fun hmem => ?_⟩,
    Cut.separator_not_mem_of_blanks hbehind⟩
  rcases spells.mem hmem with hplus | hdigit
  · exact absurd hplus (by decide)
  · exact absurd hdigit (by decide)

theorem separator_not_mem_of_isIds {fields : List (List Char)} {ids : List UInt64}
    (h : List.Forall₂ IsId fields ids) : ∀ field ∈ fields, fieldSeparator ∉ field := by
  induction h with
  | nil => exact List.forall_mem_nil _
  | cons isId _ ih => exact List.forall_mem_cons.2 ⟨separator_not_mem_of_isId isId, ih⟩

/-- A line of the grammar is cut into its verb and its identifiers. -/
theorem cut_of_isLine {c : Command} {line : List Char} (h : IsLine c.verb.toText c.ids line) :
    ∃ first fields, Cut line first fields ∧ trim first = c.verb.toText.toList ∧
      List.Forall₂ IsId fields c.ids := by
  obtain ⟨before, behind, fields, hbefore, hbehind, isIds, rfl⟩ := h
  refine ⟨_, fields, ⟨rfl, ?_⟩, ?_, isIds⟩
  · refine List.forall_mem_cons.2 ⟨?_, separator_not_mem_of_isIds isIds⟩
    simp only [List.mem_append, not_or]
    exact ⟨⟨Cut.separator_not_mem_of_blanks hbefore, separator_not_mem_toText c.verb⟩,
      Cut.separator_not_mem_of_blanks hbehind⟩
  · rw [trim_blanks_append hbefore hbehind, trim_toText]

theorem parse_of_written {c : Command} {line : List Char} (h : Written c line) :
    parse line = .ok c := by
  obtain ⟨first', fields', cut', word, isIds⟩ := cut_of_isLine (written_iff.1 h)
  obtain ⟨first, fields, -, cut⟩ := exists_cut (trim line)
  obtain ⟨hfirst, hfields⟩ := cut.trim_fields cut'
  rw [parse_of_verb cut (hfirst.symm.trans word)]
  rw [forall₂_isId_iff, hfields, ← forall₂_isId_iff] at isIds
  exact ofFields_of_isId isIds

theorem parse_of_refused {line : List Char} {e : CommandError} (h : Refused line e) :
    parse line = .error e := by
  cases h with
  | empty blanks => exact parse_of_blanks blanks
  | unknownVerb notBlank trimmed cut word unknown =>
      obtain rfl := trim_of_trimmed trimmed
      obtain rfl := trim_of_trimmed word
      exact parse_of_unknown cut notBlank unknown
  | arity trimmed cut word length =>
      obtain rfl := trim_of_trimmed trimmed
      rw [parse_of_verb cut (trim_of_trimmed word), ofFields_of_length_ne length]
  | badId trimmed cut word length firstBad =>
      obtain rfl := trim_of_trimmed trimmed
      rw [parse_of_verb cut (trim_of_trimmed word), ofFields_of_firstBad length firstBad]

/-- Every line is a request, or there is a reason why it is none. -/
theorem written_or_refused (line : List Char) :
    (∃ c, Written c line) ∨ ∃ e, Refused line e := by
  obtain ⟨first, fields, -, cut⟩ := exists_cut (trim line)
  have trimmed := trimmed_trim line
  by_cases blanks : Blanks line
  · exact .inr ⟨_, .empty blanks⟩
  by_cases known : ∃ verb : Verb, trim first = verb.toText.toList
  swap
  · exact .inr ⟨_, .unknownVerb blanks trimmed cut (trimmed_trim first)
      fun verb h => known ⟨verb, h⟩⟩
  obtain ⟨verb, word⟩ := known
  by_cases length : fields.length = verb.arguments.length
  swap
  · exact .inr ⟨_, .arity trimmed cut (trim_eq_iff.1 word) length⟩
  rcases isId_or_firstBad verb.arguments fields length with ⟨ids, isIds⟩ | ⟨name, field, firstBad⟩
  swap
  · exact .inr ⟨_, .badId trimmed cut (trim_eq_iff.1 word) length firstBad⟩
  obtain ⟨c, rfl, rfl⟩ := exists_of_isId length isIds
  -- The blanks at the ends of the line belong to its outer fields.
  obtain ⟨first', fields', -, cut'⟩ := exists_cut line
  obtain ⟨hfirst, hfields⟩ := cut.trim_fields cut'
  obtain ⟨⟨before, behind, hbefore, hbehind, hsides⟩, -, -⟩ :=
    trim_eq_iff.1 (hfirst.trans word)
  rw [forall₂_isId_iff, ← hfields, ← forall₂_isId_iff] at isIds
  refine .inl ⟨c, written_iff.2 ⟨before, behind, fields', hbefore, hbehind, isIds, ?_⟩⟩
  rw [← hsides]
  exact cut'.joined

theorem isId_natDigits (id : UInt64) : IsId (natDigits id.toNat) id :=
  ⟨[], _, [], List.forall_mem_nil _, readWord_eq_ok_iff.1 (readWord_natDigits id),
    List.forall_mem_nil _, by simp⟩

theorem toList_foldl_ids (ids : List UInt64) (line : String) :
    (ids.foldl (fun line id => line ++ ";" ++ idText id) line).toList =
      joinFields line.toList (ids.map fun id => natDigits id.toNat) := by
  induction ids generalizing line with
  | nil => simp [joinFields]
  | cons id ids ih =>
      rw [List.foldl_cons, ih]
      simp [joinFields, idText, natText, fieldSeparator]

theorem written_toText (c : Command) : Written c c.toText.toList := by
  refine written_iff.2 ⟨[], [], c.ids.map fun id => natDigits id.toNat, List.forall_mem_nil _,
    List.forall_mem_nil _, ?_, ?_⟩
  · rw [List.forall₂_map_left_iff]
    exact List.forall₂_same.2 fun id _ => isId_natDigits id
  · rw [toText, toList_foldl_ids, List.nil_append, List.append_nil]

/-- The lines of the grammar are read as the requests that they spell, and every other line is
refused for its first fault. Every request has a line. -/
theorem parse_iff_written (line : List Char) :
    (∀ c, parse line = .ok c ↔ Written c line) ∧
    (∀ e, parse line = .error e ↔ Refused line e) ∧
    ∀ c, Written c c.toText.toList ∧ parse c.toText.toList = .ok c := by
  refine ⟨fun c => ⟨fun h => ?_, parse_of_written⟩, fun e => ⟨fun h => ?_, parse_of_refused⟩,
    fun c => ⟨written_toText c, parse_of_written (written_toText c)⟩⟩
  · rcases written_or_refused line with ⟨c', written⟩ | ⟨e, refused⟩
    · rw [parse_of_written written] at h
      rwa [← Except.ok.inj h]
    · cases (parse_of_refused refused).symm.trans h
  · rcases written_or_refused line with ⟨c, written⟩ | ⟨e', refused⟩
    · cases (parse_of_written written).symm.trans h
    · rw [parse_of_refused refused] at h
      rwa [← Except.error.inj h]

end Command

end RentalDesk
