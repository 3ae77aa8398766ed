import RentalDesk.Catalog.Records

/-!
# Written records

How records can be written: a field is bytes without commas and line ends, or any bytes in quotes
with such bytes behind them, and fields are joined with commas. Whatever stands in the quotes, the
reader is back at the start of a record where the line ends, so that a record is read as its fields
and the records behind it are read as if it were not there.
-/

namespace RentalDesk.Catalog

/-! ## The grammar -/

/-- The byte separates no fields and ends no line. -/
def Ordinary (b : UInt8) : Prop := b ≠ comma ∧ endsLine b = false

instance (b : UInt8) : Decidable (Ordinary b) := inferInstanceAs (Decidable (_ ∧ _))

/-- A field as it is written: perhaps bytes in quotes, and bytes without quotes around them, which
do not begin with a quote themselves. -/
structure WrittenField where
  inQuotes : Option Field
  behind : Field
  ordinary : ∀ b ∈ behind, Ordinary b
  unquoted : behind.head? ≠ some quote

namespace WrittenField

/-- Quotes inside of quotes are written twice. -/
def doubled (bytes : Field) : Field := bytes.flatMap fun b => if b = quote then [b, b] else [b]

def bytes (f : WrittenField) : List UInt8 :=
  match f.inQuotes with
  | none => f.behind
  | some inside => quote :: (doubled inside ++ quote :: f.behind)

/-- The bytes for which the field stands. -/
def content (f : WrittenField) : Field := f.inQuotes.getD [] ++ f.behind

/-- A field that is put in quotes. -/
def quoted (inside : Field) : WrittenField where
  inQuotes := some inside
  behind := []
  ordinary := List.forall_mem_nil _
  unquoted := nofun

end WrittenField

/-- What ends a line. -/
inductive LineEnd where
  | lineFeed
  | carriageReturn
  | both
deriving DecidableEq, Repr

def LineEnd.bytes : LineEnd → List UInt8
  | .lineFeed => [Catalog.lineFeed]
  | .carriageReturn => [Catalog.carriageReturn]
  | .both => [Catalog.carriageReturn, Catalog.lineFeed]

/-- A record as it is written. A single field is not empty, for an empty line is no record. -/
structure WrittenRecord where
  first : WrittenField
  others : List WrittenField
  ending : LineEnd
  not_blank : others = [] → first.bytes ≠ []

namespace WrittenRecord

def bytes (r : WrittenRecord) : List UInt8 :=
  r.first.bytes ++ (r.others.flatMap fun f => comma :: f.bytes) ++ r.ending.bytes

def fields (r : WrittenRecord) : List Field := (r.first :: r.others).map WrittenField.content

theorem fields_ne_nil (r : WrittenRecord) : r.fields ≠ [] := List.cons_ne_nil _ _

end WrittenRecord

/-! ## Reading fields -/

/-- A line feed or a carriage return is no comma and no quote. -/
theorem ne_of_endsLine {b : UInt8} (h : endsLine b = true) : b ≠ comma ∧ b ≠ quote := by
  constructor
  · rintro rfl
    cases h
  · rintro rfl
    cases h

/-- What is read once a field is behind a byte that ends it. -/
def closeField (content : Field) (fields : List Field) (b : UInt8) (bs : List UInt8) :
    List (List Field) :=
  if endsLine b then (content :: fields).reverse :: readRecords .start [] [] bs
  else readRecords .fieldStart [] (content :: fields) bs

section

variable {b : UInt8} (fields : List Field) (bs : List UInt8)

/-- A comma or a line end closes a field in which no quote is open. -/
theorem readRecords_close {place : Place}
    (hplace : place = .fieldStart ∨ place = .plain ∨ place = .quoteInQuoted)
    (hb : b = comma ∨ endsLine b = true) (field : Field) :
    readRecords place field fields (b :: bs) = closeField field.reverse fields b bs := by
  have not_quote : b ≠ quote := by
    rcases hb with rfl | hb
    · decide
    · exact (ne_of_endsLine hb).2
  cases hline : endsLine b with
  | true => rcases hplace with rfl | rfl | rfl <;> simp [readRecords, closeField, hline]
  | false =>
      have hcomma : b = comma := hb.resolve_right (by rw [hline]; exact Bool.false_ne_true)
      rcases hplace with rfl | rfl | rfl <;>
        simp only [readRecords, closeField, hline, if_neg not_quote, if_pos hcomma,
          Bool.false_eq_true, if_false]

/-- Ordinary bytes go to the field. -/
theorem readRecords_plain {run : Field} (h : ∀ b ∈ run, Ordinary b) (field : Field)
    (rest : List UInt8) :
    readRecords .plain field fields (run ++ rest) =
      readRecords .plain (run.reverse ++ field) fields rest := by
  induction run generalizing field with
  | nil => rfl
  | cons c run ih =>
      rw [List.forall_mem_cons] at h
      rw [List.cons_append, readRecords, if_neg (by rw [h.1.2]; exact Bool.false_ne_true),
        if_neg h.1.1, ih h.2, List.reverse_cons, List.append_assoc, List.singleton_append]

/-- Everything in quotes goes to the field, two quotes as one. -/
theorem readRecords_quoted (inside field : Field) (rest : List UInt8) :
    readRecords .quoted field fields (WrittenField.doubled inside ++ quote :: rest) =
      readRecords .quoteInQuoted (inside.reverse ++ field) fields rest := by
  induction inside generalizing field with
  | nil =>
      rw [WrittenField.doubled, List.flatMap_nil, List.nil_append, readRecords, if_pos rfl]
      rfl
  | cons c inside ih =>
      have step : readRecords .quoted field fields
          (WrittenField.doubled (c :: inside) ++ quote :: rest) =
            readRecords .quoted (c :: field) fields
              (WrittenField.doubled inside ++ quote :: rest) := by
        rw [WrittenField.doubled, List.flatMap_cons, ← WrittenField.doubled]
        split
        · next hquote =>
            subst hquote
            rfl
        · next hquote =>
            rw [List.append_assoc, List.singleton_append, readRecords, if_neg hquote]
      rw [step, ih, List.reverse_cons, List.append_assoc, List.singleton_append]

/-- An ordinary byte begins what is not in quotes, unless it is a quote itself. -/
theorem readRecords_first {place : Place} (hplace : place = .fieldStart ∨ place = .quoteInQuoted)
    (ordinary : Ordinary b) (not_quote : b ≠ quote) (field : Field) :
    readRecords place field fields (b :: bs) = readRecords .plain (b :: field) fields bs := by
  rcases hplace with rfl | rfl <;> simp [readRecords, ordinary.1, ordinary.2, not_quote]

/-- Bytes that are not in quotes are read up to the byte that ends the field. -/
theorem readRecords_behind {place : Place}
    (hplace : place = .fieldStart ∨ place = .quoteInQuoted) {behind : Field}
    (ordinary : ∀ b ∈ behind, Ordinary b) (unquoted : behind.head? ≠ some quote)
    (hb : b = comma ∨ endsLine b = true) (field : Field) :
    readRecords place field fields (behind ++ b :: bs) =
      closeField (field.reverse ++ behind) fields b bs := by
  cases behind with
  | nil =>
      rw [List.nil_append, List.append_nil]
      exact readRecords_close fields bs (hplace.imp_right .inr) hb field
  | cons c behind =>
      rw [List.forall_mem_cons] at ordinary
      have not_quote : c ≠ quote := fun h => unquoted (congrArg some h)
      rw [List.cons_append, readRecords_first fields _ hplace ordinary.1 not_quote,
        readRecords_plain fields ordinary.2, readRecords_close fields bs (.inr (.inl rfl)) hb]
      simp

/-- A field is read from what is written. -/
theorem readRecords_field (f : WrittenField) (hb : b = comma ∨ endsLine b = true) :
    readRecords .fieldStart [] fields (f.bytes ++ b :: bs) = closeField f.content fields b bs := by
  rw [WrittenField.bytes, WrittenField.content]
  cases f.inQuotes with
  | none => exact readRecords_behind fields bs (.inl rfl) f.ordinary f.unquoted hb []
  | some inside =>
      have opened : readRecords .fieldStart [] fields
          (quote :: (WrittenField.doubled inside ++ quote :: f.behind) ++ b :: bs) =
            readRecords .quoted [] fields
              (WrittenField.doubled inside ++ quote :: (f.behind ++ b :: bs)) := by
        rw [List.cons_append, readRecords, List.append_assoc, List.cons_append]
        rfl
      rw [opened, readRecords_quoted,
        readRecords_behind fields bs (.inr rfl) f.ordinary f.unquoted hb, List.append_nil,
        List.reverse_reverse, Option.getD_some]

end

/-! ## Reading records -/

/-- Empty lines are skipped. -/
theorem readRecords_blank (ending : LineEnd) (rest : List UInt8) :
    readRecords .start [] [] (ending.bytes ++ rest) = readRecords .start [] [] rest := by
  cases ending <;> rfl

/-- At the end of a line the reader is back at the start of a record. -/
theorem closeField_ending (content : Field) (fields : List Field) (ending : LineEnd) :
    ∃ b more, ending.bytes = b :: more ∧ endsLine b = true ∧
      ∀ rest, closeField content fields b (more ++ rest) =
        (content :: fields).reverse :: readRecords .start [] [] rest := by
  cases ending with
  | lineFeed => exact ⟨_, [], rfl, rfl, fun _ => rfl⟩
  | carriageReturn => exact ⟨_, [], rfl, rfl, fun _ => rfl⟩
  | both => exact ⟨_, [lineFeed], rfl, rfl, fun _ => rfl⟩

theorem WrittenField.endsLine_of_bytes (f : WrittenField) {b : UInt8} {bs : List UInt8}
    (h : f.bytes = b :: bs) : endsLine b = false := by
  rw [bytes] at h
  cases hquotes : f.inQuotes with
  | none =>
      rw [hquotes] at h
      have mem : b ∈ f.behind := by
        rw [show f.behind = b :: bs from h]
        exact List.mem_cons_self
      exact (f.ordinary b mem).2
  | some inside =>
      rw [hquotes] at h
      rw [← (List.cons.inj h).1]
      rfl

/-- The first byte of a record ends no line. -/
theorem WrittenRecord.exists_first (r : WrittenRecord) :
    ∃ b bs, r.bytes = b :: bs ∧ endsLine b = false := by
  rw [bytes]
  cases hfirst : r.first.bytes with
  | cons b bs => exact ⟨b, _, rfl, r.first.endsLine_of_bytes hfirst⟩
  | nil =>
      cases hothers : r.others with
      | nil => exact absurd hfirst (r.not_blank hothers)
      | cons f others => exact ⟨comma, _, rfl, rfl⟩

/-- The fields of a record are read one by one. -/
theorem readRecords_fields (f : WrittenField) (others : List WrittenField) (ending : LineEnd)
    (fields : List Field) (rest : List UInt8) :
    readRecords .fieldStart [] fields
        (f.bytes ++ (others.flatMap fun f => comma :: f.bytes) ++ ending.bytes ++ rest) =
      (fields.reverse ++ (f :: others).map WrittenField.content) ::
        readRecords .start [] [] rest := by
  induction others generalizing f fields with
  | nil =>
      obtain ⟨b, more, hending, hb, close⟩ := closeField_ending f.content fields ending
      have joined : f.bytes ++ ([].flatMap fun f => comma :: WrittenField.bytes f) ++
          ending.bytes ++ rest = f.bytes ++ b :: (more ++ rest) := by simp [hending]
      rw [joined, readRecords_field fields _ f (.inr hb), close]
      simp
  | cons g others ih =>
      have joined : f.bytes ++ ((g :: others).flatMap fun f => comma :: f.bytes) ++
          ending.bytes ++ rest = f.bytes ++ comma ::
            (g.bytes ++ (others.flatMap fun f => comma :: f.bytes) ++ ending.bytes ++ rest) := by
        simp
      rw [joined, readRecords_field fields _ f (.inl rfl)]
      change readRecords .fieldStart [] (f.content :: fields) _ = _
      rw [ih]
      simp

/-- A record that does not begin with a line end is read like another field. -/
theorem readRecords_start {b : UInt8} (h : endsLine b = false) (bs : List UInt8) :
    readRecords .start [] [] (b :: bs) = readRecords .fieldStart [] [] (b :: bs) := by
  simp [readRecords, h]

/-- A record is read as its fields, whatever comes behind it. -/
theorem readRecords_record (r : WrittenRecord) (rest : List UInt8) :
    readRecords .start [] [] (r.bytes ++ rest) =
      r.fields :: readRecords .start [] [] rest := by
  obtain ⟨b, bs, hbytes, hb⟩ := r.exists_first
  rw [hbytes, List.cons_append, readRecords_start hb, ← List.cons_append, ← hbytes,
    WrittenRecord.bytes, readRecords_fields]
  rfl

/-! ## Every source is made of records -/

/-- Bytes are ordinary up to one that closes a field, or all of them are. -/
theorem exists_run (bs : List UInt8) :
    (∃ run b rest, (∀ c ∈ run, Ordinary c) ∧ (b = comma ∨ endsLine b = true) ∧
      bs = run ++ b :: rest) ∨ ∀ c ∈ bs, Ordinary c := by
  induction bs with
  | nil => exact .inr (List.forall_mem_nil _)
  | cons c bs ih =>
      by_cases hcomma : c = comma
      · exact .inl ⟨[], c, bs, List.forall_mem_nil _, .inl hcomma, rfl⟩
      cases hline : endsLine c with
      | true => exact .inl ⟨[], c, bs, List.forall_mem_nil _, .inr hline, rfl⟩
      | false =>
          rcases ih with ⟨run, b, rest, hrun, hb, rfl⟩ | hall
          · exact .inl ⟨c :: run, b, rest, List.forall_mem_cons.2 ⟨⟨hcomma, hline⟩, hrun⟩, hb, rfl⟩
          · exact .inr (List.forall_mem_cons.2 ⟨⟨hcomma, hline⟩, hall⟩)

/-- An open quote is closed, or else it takes the rest of the source into one record. -/
theorem exists_closing_quote : ∀ bs : List UInt8,
    (∃ inside rest, rest.head? ≠ some quote ∧
      bs = WrittenField.doubled inside ++ quote :: rest) ∨
    ∀ field fields, (readRecords .quoted field fields bs).length ≤ 1
  | [] => .inr fun _ _ => Nat.le_refl _
  | [c] => by
      by_cases hc : c = quote
      · subst hc
        exact .inl ⟨[], [], nofun, rfl⟩
      · exact .inr fun field fields => by simp [readRecords, hc]
  | c :: d :: bs => by
      by_cases hc : c = quote
      · subst hc
        by_cases hd : d = quote
        · subst hd
          rcases exists_closing_quote bs with ⟨inside, rest, hrest, rfl⟩ | open'
          · exact .inl ⟨quote :: inside, rest, hrest, rfl⟩
          · exact .inr fun field fields => open' (quote :: field) fields
        · exact .inl ⟨[], d :: bs, by simpa using hd, rfl⟩
      · rcases exists_closing_quote (d :: bs) with ⟨inside, rest, hrest, hbs⟩ | open'
        · refine .inl ⟨c :: inside, rest, hrest, ?_⟩
          rw [hbs, WrittenField.doubled, WrittenField.doubled, List.flatMap_cons, if_neg hc]
          rfl
        · refine .inr fun field fields => ?_
          rw [readRecords, if_neg hc]
          exact open' (c :: field) fields

/-- Ordinary bytes at the end of a source belong to one record. -/
theorem length_readRecords_of_ordinary {place : Place}
    (hplace : place = .fieldStart ∨ place = .quoteInQuoted) {bs : List UInt8}
    (ordinary : ∀ b ∈ bs, Ordinary b) (unquoted : bs.head? ≠ some quote) (field : Field)
    (fields : List Field) : (readRecords place field fields bs).length ≤ 1 := by
  cases bs with
  | nil => rcases hplace with rfl | rfl <;> exact Nat.le_refl _
  | cons c bs =>
      rw [List.forall_mem_cons] at ordinary
      have not_quote : c ≠ quote := fun h => unquoted (congrArg some h)
      rw [readRecords_first fields bs hplace ordinary.1 not_quote, ← List.append_nil bs,
        readRecords_plain fields ordinary.2]
      exact Nat.le_refl _

/-- A field is written in front of a byte that closes it, or the source ends in its record. -/
theorem exists_field (bs : List UInt8) :
    (∃ (f : WrittenField) (b : UInt8) (rest : List UInt8), (b = comma ∨ endsLine b = true) ∧
      bs = f.bytes ++ b :: rest) ∨
    ∀ fields, (readRecords .fieldStart [] fields bs).length ≤ 1 := by
  by_cases hquote : bs.head? = some quote
  · obtain ⟨tail, rfl⟩ : ∃ tail, bs = quote :: tail := List.head?_eq_some_iff.1 hquote
    rcases exists_closing_quote tail with ⟨inside, behind, unquoted, rfl⟩ | open'
    · rcases exists_run behind with ⟨run, b, rest, ordinary, hb, rfl⟩ | ordinary
      · have unquoted' : run.head? ≠ some quote := fun h => unquoted (by simp [h])
        exact .inl ⟨⟨some inside, run, ordinary, unquoted'⟩, b, rest, hb,
          by simp [WrittenField.bytes]⟩
      · refine .inr fun fields => ?_
        change (readRecords .quoted [] fields _).length ≤ 1
        rw [readRecords_quoted]
        exact length_readRecords_of_ordinary (.inr rfl) ordinary unquoted _ fields
    · exact .inr fun fields => open' [] fields
  · rcases exists_run bs with ⟨run, b, rest, ordinary, hb, rfl⟩ | ordinary
    · have unquoted : run.head? ≠ some quote := fun h => hquote (by simp [h])
      exact .inl ⟨⟨none, run, ordinary, unquoted⟩, b, rest, hb, rfl⟩
    · exact .inr fun fields => length_readRecords_of_ordinary (.inl rfl) ordinary hquote [] fields

theorem exists_ending {b : UInt8} (h : endsLine b = true) :
    ∃ ending : LineEnd, ending.bytes = [b] := by
  rcases Bool.or_eq_true_iff.1 h with hb | hb
  · exact ⟨.lineFeed, by rw [eq_of_beq hb]; rfl⟩
  · exact ⟨.carriageReturn, by rw [eq_of_beq hb]; rfl⟩

/-- Fields are written up to the end of a line, or the source ends in their record. -/
theorem exists_fields (bs : List UInt8) :
    (∃ (f : WrittenField) (others : List WrittenField) (ending : LineEnd) (rest : List UInt8),
      bs = f.bytes ++ (others.flatMap fun f => comma :: f.bytes) ++ ending.bytes ++ rest) ∨
    ∀ fields, (readRecords .fieldStart [] fields bs).length ≤ 1 := by
  induction hlength : bs.length using Nat.strongRecOn generalizing bs with
  | _ n ih =>
      rcases exists_field bs with ⟨f, b, rest, hcomma | hline, rfl⟩ | short
      · subst hcomma
        have shorter : rest.length < n := by
          rw [← hlength, List.length_append, List.length_cons]
          omega
        rcases ih _ shorter rest rfl with ⟨g, others, ending, rest, rfl⟩ | short
        · exact .inl ⟨f, g :: others, ending, rest, by simp⟩
        · refine .inr fun fields => ?_
          rw [readRecords_field fields rest f (.inl rfl)]
          exact short (f.content :: fields)
      · obtain ⟨ending, hending⟩ := exists_ending hline
        exact .inl ⟨f, [], ending, rest, by simp [hending]⟩
      · exact .inr short

/-- In front of a source there is an empty line or a record, or all of it is one record at most. -/
theorem exists_record (bs : List UInt8) :
    (∃ (ending : LineEnd) (rest : List UInt8), bs = ending.bytes ++ rest) ∨
    (∃ (r : WrittenRecord) (rest : List UInt8), bs = r.bytes ++ rest) ∨
    (readRecords .start [] [] bs).length ≤ 1 := by
  cases bs with
  | nil => exact .inr (.inr (Nat.zero_le 1))
  | cons b bs =>
      cases hline : endsLine b with
      | true =>
          obtain ⟨ending, hending⟩ := exists_ending hline
          exact .inl ⟨ending, bs, by rw [hending]; rfl⟩
      | false =>
          rcases exists_fields (b :: bs) with ⟨f, others, ending, rest, hbs⟩ | short
          · refine .inr (.inl ⟨⟨f, others, ending, fun hothers hf => ?_⟩, rest, hbs⟩)
            -- Otherwise the line end would be the first byte.
            obtain ⟨first, more, hending, hfirst, -⟩ := closeField_ending [] [] ending
            rw [hothers, hf, hending] at hbs
            rw [(List.cons.inj hbs).1, hfirst] at hline
            cases hline
          · rw [readRecords_start hline]
            exact .inr (.inr (short []))

end RentalDesk.Catalog
