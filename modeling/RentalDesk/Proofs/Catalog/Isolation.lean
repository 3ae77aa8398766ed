import RentalDesk.Proofs.Catalog.Rows
import RentalDesk.Proofs.Catalog.Written

/-!
# Rows apart from each other

A catalog with quoted titles is read back row by row, whatever the titles contain and however the
lines end. Bad rows, empty lines and further fields in a row change nothing about the other rows:
for each bad row there is one error in its place. So a catalog is read as each of its lines is read
alone under the same heading.
-/

namespace RentalDesk.Catalog

open Text

/-! ## Rows with quoted titles -/

/-- The digits of an identifier are bytes that need no quotes. -/
theorem ordinary_of_digit {c : Char} (hc : c.isDigit = true) {b : UInt8}
    (hb : b ∈ String.utf8EncodeChar c) : Ordinary b ∧ b ≠ quote := by
  have h0 : 48 ≤ c.val.toNat := (isDigit_iff.1 hc).1
  have h9 : c.val.toNat ≤ 57 := (isDigit_iff.1 hc).2
  have encoded : String.utf8EncodeChar c = [UInt8.ofNat c.val.toNat] :=
    if_pos (h9.trans (by decide))
  rw [encoded, List.mem_singleton] at hb
  have value : b.toNat = c.val.toNat := by
    rw [hb, UInt8.toNat_ofNat']
    omega
  have apart {a : UInt8} (ha : a.toNat < 48) : b ≠ a := by
    rintro rfl
    omega
  have noEnd : endsLine b = false :=
    Bool.or_eq_false_iff.2
      ⟨beq_false_of_ne (apart (by decide)), beq_false_of_ne (apart (by decide))⟩
  exact ⟨⟨apart (by decide), noEnd⟩, apart (by decide)⟩

theorem ordinary_utf8_natDigits (n : ℕ) :
    ∀ b ∈ utf8 (natDigits n), Ordinary b ∧ b ≠ quote := by
  intro b hb
  rw [utf8_eq_flatMap, List.mem_flatMap] at hb
  obtain ⟨c, hc, hb⟩ := hb
  exact ordinary_of_digit (isDigit_of_mem_natDigits hc) hb

/-- A row as it is written for an entry: the identifier in digits, the title in quotes, and perhaps
further fields. The title has no blanks at its ends. -/
structure WrittenRow where
  entry : Entry
  extra : List WrittenField
  ending : LineEnd
  trimmed : Trimmed entry.title.toList entry.title.toList
  isText : ∀ f ∈ extra, IsText f.content

namespace WrittenRow

def bytes (w : WrittenRow) : List UInt8 :=
  utf8 (natDigits w.entry.id.toNat) ++
    (comma :: quote :: (WrittenField.doubled (utf8 w.entry.title.toList) ++ [quote])) ++
    (w.extra.flatMap fun f => comma :: f.bytes) ++ w.ending.bytes

def record (w : WrittenRow) : WrittenRecord where
  first :=
    { inQuotes := none
      behind := utf8 (natDigits w.entry.id.toNat)
      ordinary := fun b hb => (ordinary_utf8_natDigits _ b hb).1
      unquoted := fun h => (ordinary_utf8_natDigits _ quote (List.mem_of_head? h)).2 rfl }
  others := .quoted (utf8 w.entry.title.toList) :: w.extra
  ending := w.ending
  not_blank := nofun

theorem bytes_record (w : WrittenRow) : w.record.bytes = w.bytes := by
  simp [WrittenRecord.bytes, record, bytes, WrittenField.bytes, WrittenField.quoted]

theorem isRow (w : WrittenRow) : IsRow w.record.fields w.entry := by
  refine ⟨natDigits w.entry.id.toNat, w.entry.title.toList, w.extra.map WrittenField.content,
    natDigits w.entry.id.toNat, ?_, ?_, ?_, ?_, w.trimmed⟩
  · simp [WrittenRecord.fields, record, WrittenField.content, WrittenField.quoted]
  · intro field hfield
    obtain ⟨f, hf, rfl⟩ := List.mem_map.1 hfield
    exact w.isText f hf
  · exact trimmed_self fun c hc => isBlank_of_isDigit (isDigit_of_mem_natDigits hc)
  · exact .decimal (readWord_eq_ok_iff.1 (readWord_natDigits _))

end WrittenRow

/-! ## Lines -/

/-- A line of a catalog, as long as its quotes make it: a good row, a bad one, or nothing. -/
inductive Line where
  | row (entry : Entry) (r : WrittenRecord) (good : IsRow r.fields entry)
  | bad (r : WrittenRecord) (wrong : IsBad r.fields)
  | blank (ending : LineEnd)

namespace Line

def bytes : Line → List UInt8
  | .row _ r _ => r.bytes
  | .bad r _ => r.bytes
  | .blank ending => ending.bytes

def isRecord : Line → Bool
  | .blank _ => false
  | _ => true

def isRow : Line → Bool
  | .row .. => true
  | _ => false

def isBad : Line → Bool
  | .bad .. => true
  | _ => false

/-- What can be read for the line, if anything is. -/
def Gives : Line → Except CatalogCause Entry → Prop
  | .row entry _ _, result => result = .ok entry
  | .bad r _, result => ∃ cause, Flawed r.fields cause ∧ result = .error cause
  | .blank _, _ => False

end Line

def WrittenRow.line (w : WrittenRow) : Line := .row w.entry w.record w.isRow

theorem WrittenRow.bytes_line (w : WrittenRow) : w.line.bytes = w.bytes := w.bytes_record

/-! ## Sources -/

/-- The record that names the columns. -/
def heading (ending : LineEnd) : List UInt8 := utf8 "id,title".toList ++ ending.bytes

/-- What is behind the heading is read under its columns. -/
theorem read_heading (ending : LineEnd) (rest : List UInt8) :
    read (heading ending ++ rest) =
      (readRecords .start [] [] rest).map (readRow (some columns)) := by
  have named : headerColumns [utf8 "id".toList, utf8 "title".toList] = some columns := by
    decide +kernel
  have first : records (heading ending ++ rest) =
      [utf8 "id".toList, utf8 "title".toList] :: readRecords .start [] [] rest := by
    cases ending <;> rfl
  rw [read, first]
  dsimp only
  rw [named]

namespace Line

/-- What is read for the line. -/
def results : Line → List (Except CatalogCause Entry)
  | .row entry _ _ => [.ok entry]
  | .bad r _ => [readRow (some columns) r.fields]
  | .blank _ => []

end Line

section

variable (ending : LineEnd)

/-- A line is read as what it is, and what is behind it as if it were not there. -/
theorem read_line (line : Line) (rest : List UInt8) :
    read (heading ending ++ (line.bytes ++ rest)) =
      line.results ++ read (heading ending ++ rest) := by
  rw [read_heading, read_heading]
  cases line with
  | row entry r good =>
      rw [Line.bytes, readRecords_record, List.map_cons, readRow_of_isRow good]
      rfl
  | bad r wrong =>
      rw [Line.bytes, readRecords_record, List.map_cons]
      rfl
  | blank ending =>
      rw [Line.bytes, readRecords_blank]
      rfl

theorem read_lines (lines : List Line) (rest : List UInt8) :
    read (heading ending ++ (lines.flatMap Line.bytes ++ rest)) =
      lines.flatMap Line.results ++ read (heading ending ++ rest) := by
  induction lines with
  | nil => rfl
  | cons line lines ih =>
      rw [List.flatMap_cons, List.append_assoc, read_line, ih, List.flatMap_cons, List.append_assoc]

theorem read_nothing : read (heading ending) = [] := by
  rw [← List.append_nil (heading ending), read_heading]
  rfl

theorem read_only_lines (lines : List Line) :
    read (heading ending ++ lines.flatMap Line.bytes) = lines.flatMap Line.results := by
  have whole := read_lines ending lines []
  rwa [List.append_nil, List.append_nil, read_nothing, List.append_nil] at whole

theorem read_alone (line : Line) : read (heading ending ++ line.bytes) = line.results := by
  have alone := read_only_lines ending [line]
  rwa [List.flatMap_singleton, List.flatMap_singleton] at alone

end

/-! ## Rows apart from each other -/

/-- A line is read as what it stands for: a good row as its entry, and a bad one as an error. -/
theorem forall₂_gives (lines : List Line) :
    List.Forall₂ Line.Gives (lines.filter Line.isRecord) (lines.flatMap Line.results) := by
  induction lines with
  | nil => exact .nil
  | cons line lines ih =>
      cases line with
      | row entry r good => exact .cons rfl ih
      | bad r wrong => exact .cons (exists_readRow_of_isBad r.fields_ne_nil wrong) ih
      | blank ending => exact ih

/-- For lines without good rows there are errors, one for each bad row. -/
theorem exists_errors {lines : List Line} (h : ∀ line ∈ lines, line.isRow = false) :
    ∃ errors : List CatalogCause, errors.length = lines.countP Line.isBad ∧
      lines.flatMap Line.results = errors.map .error := by
  induction lines with
  | nil => exact ⟨[], rfl, rfl⟩
  | cons line lines ih =>
      rw [List.forall_mem_cons] at h
      obtain ⟨errors, hcount, hresults⟩ := ih h.2
      cases line with
      | row entry r good => cases h.1
      | bad r wrong =>
          obtain ⟨cause, -, hread⟩ := exists_readRow_of_isBad r.fields_ne_nil wrong
          refine ⟨cause :: errors, ?_, ?_⟩
          · rw [List.length_cons, hcount, List.countP_cons_of_pos rfl]
          · rw [List.flatMap_cons, hresults, Line.results, hread]
            rfl
      | blank ending => exact ⟨errors, hcount, hresults⟩

/-- A record is a good row or a bad one. -/
theorem exists_line (r : WrittenRecord) : ∃ line : Line, line.bytes = r.bytes := by
  rcases readRow_cases r.fields_ne_nil with ⟨entry, good, -⟩ | ⟨cause, flawed, -⟩
  · exact ⟨.row entry r good, rfl⟩
  · exact ⟨.bad r flawed.isBad, rfl⟩

/-- Every source consists of lines and an end in which there is one record at most. -/
theorem exists_lines (source : List UInt8) :
    ∃ (lines : List Line) (rest : List UInt8), source = lines.flatMap Line.bytes ++ rest ∧
      (readRecords .start [] [] rest).length ≤ 1 := by
  induction hlength : source.length using Nat.strongRecOn generalizing source with
  | _ n ih =>
      have behind (line : Line) {rest : List UInt8} (hne : line.bytes ≠ [])
          (hsource : source = line.bytes ++ rest) :
          ∃ (lines : List Line) (rest : List UInt8), source = lines.flatMap Line.bytes ++ rest ∧
            (readRecords .start [] [] rest).length ≤ 1 := by
        have shorter : rest.length < n := by
          have pos := List.length_pos_iff.2 hne
          rw [← hlength, hsource, List.length_append]
          omega
        obtain ⟨lines, last, hrest, short⟩ := ih _ shorter rest rfl
        exact ⟨line :: lines, last, by rw [hsource, hrest]; simp, short⟩
      rcases exists_record source with ⟨ending, rest, hsource⟩ | ⟨r, rest, hsource⟩ | short
      · exact behind (.blank ending) (by cases ending <;> exact nofun) hsource
      · obtain ⟨line, hline⟩ := exists_line r
        obtain ⟨b, bs, hbytes, -⟩ := r.exists_first
        exact behind line (by rw [hline, hbytes]; exact nofun) (hline ▸ hsource)
      · exact ⟨[], source, rfl, short⟩

/-- The rows of a catalog are read apart from each other, whatever ends its lines. Rows that are
written for entries are read as these entries, whatever their titles contain. Among them each bad
row is one error in its place and an empty line is nothing: lines without good rows can be put
anywhere without any effect on the other rows. So a catalog is read as its lines are read alone. -/
theorem rows_apart (ending : LineEnd) :
    (∀ rows : List WrittenRow, read (heading ending ++ rows.flatMap WrittenRow.bytes) =
      rows.map fun w => .ok w.entry) ∧
    (∀ lines : List Line, List.Forall₂ Line.Gives (lines.filter Line.isRecord)
      (read (heading ending ++ lines.flatMap Line.bytes))) ∧
    (∀ before inserted behind : List Line, (∀ line ∈ inserted, line.isRow = false) →
      ∃ errors : List CatalogCause, errors.length = inserted.countP Line.isBad ∧
        read (heading ending ++ (before ++ inserted ++ behind).flatMap Line.bytes) =
          read (heading ending ++ before.flatMap Line.bytes) ++ errors.map .error ++
            read (heading ending ++ behind.flatMap Line.bytes)) ∧
    ∀ source : List UInt8, ∃ (lines : List Line) (rest : List UInt8),
      source = lines.flatMap Line.bytes ++ rest ∧
      read (heading ending ++ source) =
        (lines.flatMap fun line => read (heading ending ++ line.bytes)) ++
          read (heading ending ++ rest) ∧
      (read (heading ending ++ rest)).length ≤ 1 := by
  refine ⟨fun rows => ?_, fun lines => ?_, fun before inserted behind h => ?_, fun source => ?_⟩
  · have written : rows.flatMap WrittenRow.bytes =
        (rows.map WrittenRow.line).flatMap Line.bytes := by
      simp [List.flatMap_map, WrittenRow.bytes_line]
    rw [written, read_only_lines, List.flatMap_map]
    exact List.flatMap_pure_eq_map _ _
  · rw [read_only_lines]
    exact forall₂_gives lines
  · obtain ⟨errors, hcount, hresults⟩ := exists_errors h
    refine ⟨errors, hcount, ?_⟩
    rw [read_only_lines, read_only_lines, read_only_lines, List.flatMap_append,
      List.flatMap_append, hresults]
  · obtain ⟨lines, rest, rfl, short⟩ := exists_lines source
    refine ⟨lines, rest, rfl, ?_, ?_⟩
    · simp only [read_lines, read_alone]
    · rw [read_heading, List.length_map]
      exact short

/-- A row for a film with a title in which there are quotes, a comma and a line end, and with a
further field. -/
def manyLined : WrittenRow where
  entry := ⟨1, "A, \"B\"\n2,C"⟩
  extra := [.quoted (utf8 "D".toList)]
  ending := .both
  trimmed := trim_eq_iff.1 (by decide)
  isText f hf := ⟨"D".toList, by rw [List.mem_singleton.1 hf]; rfl⟩

/-- A record of one field, which is no row. -/
def broken : WrittenRecord where
  first := ⟨none, utf8 "E".toList, List.forall_mem_singleton.2 (by decide), by decide⟩
  others := []
  ending := .carriageReturn
  not_blank _ := by decide

/-- A bad row and an empty line. -/
def intrusion : List Line :=
  [.bad broken (.inr (.inl (Nat.lt_succ_self 1))), .blank .both]

theorem rows_apart_intrusion :
    (∀ line ∈ intrusion, line.isRow = false) ∧
    intrusion.countP Line.isBad = 1 ∧
    ∃ errors : List CatalogCause, errors.length = intrusion.countP Line.isBad ∧
      read (heading .lineFeed ++ ([manyLined.line] ++ intrusion ++ [manyLined.line]).flatMap
          Line.bytes) =
        read (heading .lineFeed ++ [manyLined.line].flatMap Line.bytes) ++ errors.map .error ++
          read (heading .lineFeed ++ [manyLined.line].flatMap Line.bytes) := by
  have noRows : ∀ line ∈ intrusion, line.isRow = false := by simp [intrusion, Line.isRow]
  exact ⟨noRows, rfl, (rows_apart .lineFeed).2.2.1 _ _ _ noRows⟩

/-- A title may look like rows, and fields in quotes like line ends. -/
example : read (utf8
    "id,title\n1,\"A, \"\"B\"\"\nid,title\r3,C\"\rx,\"\n\"\n\n0x+1F,\"D\" ,E\r\n7\n2,F".toList) =
      [.ok ⟨1, "A, \"B\"\nid,title\r3,C"⟩, .error (.number 0 .invalidDigit), .ok ⟨31, "D"⟩,
        .error .endOfRow, .ok ⟨2, "F"⟩] := by decide +kernel

end RentalDesk.Catalog
