import RentalDesk.Proofs.Archive.Rows

/-!
# Rows survive their encoding

A row of any table is read back from the bytes that it is written as, down to the decimals of an
amount and the nanoseconds of a time, except that a zero amount is read without its minus sign. So
whatever bytes a row was read from, writing it and reading it again gives the row, and writing it a
second time gives the same bytes. A row with a negative zero takes one more round until it stays.
-/

namespace RentalDesk

/-- A row of one of the four tables. -/
inductive Entity where
  | item (row : Item)
  | rental (row : Rental)
  | fee (row : Fee)
  | invoice (row : Invoice)
deriving DecidableEq

namespace Entity

def table : Entity → TableName
  | .item _ => .items
  | .rental _ => .rentals
  | .fee _ => .fees
  | .invoice _ => .invoices

/-- The bytes that an archive keeps for the row. -/
def written : Entity → Bytes
  | .item row => Archive.encodeRow row
  | .rental row => Archive.encodeRow row
  | .fee row => Archive.encodeRow row
  | .invoice row => Archive.encodeRow row

/-- The row that an archive reads from bytes in a table. -/
def read (name : TableName) (value : Bytes) : Except Error Entity :=
  match name with
  | .items => (Archive.decodeRow value).map .item
  | .rentals => (Archive.decodeRow value).map .rental
  | .fees => (Archive.decodeRow value).map .fee
  | .invoices => (Archive.decodeRow value).map .invoice

/-- The amount of money in the row. -/
def amount? : Entity → Option Decimal
  | .fee row => some row.amount
  | .invoice row => some row.total
  | _ => none

/-- The row with the sign of a negative zero dropped from its amount. -/
def plain : Entity → Entity
  | .fee row => .fee row.plain
  | .invoice row => .invoice row.plain
  | row => row

/-- The amount of the row is a zero with a minus sign. -/
def HasNegativeZero (row : Entity) : Prop := ∃ d, row.amount? = some d ∧ d.IsNegativeZero

@[simp] theorem table_plain (row : Entity) : row.plain.table = row.table := by
  cases row <;> rfl

@[simp] theorem plain_plain (row : Entity) : row.plain.plain = row.plain := by
  cases row <;> simp [plain]

theorem plain_eq_self_iff (row : Entity) : row.plain = row ↔ ¬ row.HasNegativeZero := by
  cases row with
  | item row => simp [plain, HasNegativeZero, amount?]
  | rental row => simp [plain, HasNegativeZero, amount?]
  | fee row =>
      have hamount : row.plain = row ↔ row.amount.plainZero = row.amount := by
        cases row
        simp [Fee.plain]
      simp [plain, HasNegativeZero, amount?, hamount, Decimal.plainZero_eq_self_iff]
  | invoice row =>
      have htotal : row.plain = row ↔ row.total.plainZero = row.total := by
        cases row
        simp [Invoice.plain]
      simp [plain, HasNegativeZero, amount?, htotal, Decimal.plainZero_eq_self_iff]

/-- A row is read back, up to the sign of a zero. -/
theorem read_written (row : Entity) : read row.table row.written = .ok row.plain := by
  cases row with
  | item row => simp only [table, written, read, plain, Item.decodeRow_encodeRow, Except.map]
  | rental row => simp only [table, written, read, plain, Rental.decodeRow_encodeRow, Except.map]
  | fee row => simp only [table, written, read, plain, Fee.decodeRow_encodeRow, Except.map]
  | invoice row => simp only [table, written, read, plain, Invoice.decodeRow_encodeRow, Except.map]

theorem exists_of_map_decodeRow {α : Type} [RowText α] {wrap : α → Entity} {value : Bytes}
    {row : Entity} (h : (Archive.decodeRow value).map wrap = .ok row) :
    ∃ found, wrap found = row := by
  cases hread : Archive.decodeRow (α := α) value with
  | error error =>
      rw [hread] at h
      cases h
  | ok found =>
      rw [hread] at h
      exact ⟨found, Except.ok.inj h⟩

/-- What is read in a table is a row of the table. -/
theorem table_of_read {name : TableName} {value : Bytes} {row : Entity}
    (h : read name value = .ok row) : row.table = name := by
  cases name <;>
    · obtain ⟨found, rfl⟩ := exists_of_map_decodeRow h
      rfl

/-- Every row is read back from its bytes as the same row unless its amount is a negative zero, of
which the sign is lost. A row that was read from any bytes is read again from the bytes that it is
written as, and these are written once more unless its amount is a negative zero; what is read then
stays as it is. -/
theorem survives :
    (∀ row : Entity, read row.table row.written = .ok row.plain ∧
      (row.plain = row ↔ ¬ row.HasNegativeZero)) ∧
    ∀ name value row, read name value = .ok row →
      read name row.written = .ok row.plain ∧ read name row.plain.written = .ok row.plain ∧
        (¬ row.HasNegativeZero → row.plain.written = row.written) := by
  refine ⟨fun row => ⟨row.read_written, row.plain_eq_self_iff⟩, fun name value row h => ?_⟩
  have again : read name row.written = .ok row.plain := by
    rw [← table_of_read h, read_written]
  have twice : read name row.plain.written = .ok row.plain := by
    rw [← table_of_read h, ← row.table_plain, read_written, plain_plain]
  refine ⟨again, twice, fun positive => ?_⟩
  rw [row.plain_eq_self_iff.2 positive]

/-- The text of a fee as another program might write it. -/
def foreignText : Bytes :=
  "\x7b\"settlement\": 7, \"paid\": [true], \"amount\": 2.50e1, \"reason\": \"a\\u0007\\\"\\u00e9\",
    \"rental_id\": 18446744073709551615, \"id\": 2\x7d".toUTF8.toList

def foreignFee : Fee :=
  ⟨2, 18446744073709551615, (Decimal.ofNat? 25).getD .zero, "a\x07\"é", some 7⟩

/-- Members in another order, an unknown one and a number for the amount are gone once the fee has
been written; the fee itself stays. -/
theorem survives_foreignFee :
    read .fees foreignText = .ok (.fee foreignFee) ∧ written (.fee foreignFee) ≠ foreignText ∧
      read .fees (written (.fee foreignFee)) = .ok (.fee foreignFee) := by
  have hread : read .fees foreignText = .ok (.fee foreignFee) := by decide +kernel
  exact ⟨hread, by decide +kernel, (survives.2 _ _ _ hread).1⟩

/-- The text of a fee of so little money that rounding leaves a negative zero. -/
def strayText : Bytes :=
  "\x7b\"id\":1,\"rental_id\":1,\"amount\":\"-0.4e-28\",\"reason\":\"start\"\x7d".toUTF8.toList

def strayFee : Fee := ⟨1, 1, (Decimal.signed? true 0 28).getD .zero, "start", none⟩

/-- The fee is read from a text, and is neither read back from its own text nor written as the same
text again. -/
theorem not_survives_strayFee :
    read .fees strayText = .ok (.fee strayFee) ∧
    read .fees (written (.fee strayFee)) ≠ .ok (.fee strayFee) ∧
    ∃ again, read .fees (written (.fee strayFee)) = .ok again ∧
      again.written ≠ written (.fee strayFee) := by
  have hagain : read .fees (written (.fee strayFee)) = .ok (.fee strayFee.plain) :=
    read_written (.fee strayFee)
  refine ⟨by decide +kernel, ?_, _, hagain, by decide +kernel⟩
  rw [hagain]
  decide +kernel

end Entity

end RentalDesk
