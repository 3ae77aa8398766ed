import RentalDesk.Proofs.Archive.Keys
import RentalDesk.Proofs.Text.Decimal
import RentalDesk.Proofs.Text.Instant
import RentalDesk.Proofs.Text.Json
import RentalDesk.Store

/-!
# Rows of an archive

A row is read back from its bytes as it was written, except that an amount of zero loses its sign.
So an archive to which the rows of tables were written holds these tables, and every look at it
shows what memory shows, up to the sign of zeros.
-/

namespace RentalDesk

/-! ## Rows read back -/

/-- The fee without the sign of a negative zero. -/
def Fee.plain (fee : Fee) : Fee := { fee with amount := fee.amount.plainZero }

/-- The invoice without the sign of a negative zero. -/
def Invoice.plain (invoice : Invoice) : Invoice := { invoice with total := invoice.total.plainZero }

theorem Decimal.plainZero_plainZero (d : Decimal) : d.plainZero.plainZero = d.plainZero := by
  simp [Decimal.plainZero]

@[simp] theorem Fee.plain_plain (fee : Fee) : fee.plain.plain = fee.plain := by
  simp [Fee.plain, Decimal.plainZero_plainZero]

@[simp] theorem Invoice.plain_plain (invoice : Invoice) : invoice.plain.plain = invoice.plain := by
  simp [Invoice.plain, Decimal.plainZero_plainZero]

theorem toList_byteArray (b : ByteArray) : b.toList = b.data.toList := by
  have loop : ∀ (n i : Nat) (bytes : Bytes), b.size - i = n →
      ByteArray.toList.loop b i bytes = bytes.reverse ++ b.data.toList.drop i := by
    intro n
    induction n with
    | zero =>
        intro i bytes hn
        have hi : b.data.toList.length ≤ i := Nat.sub_eq_zero_iff_le.1 hn
        rw [ByteArray.toList.loop, if_neg (show ¬ i < b.size from Nat.not_lt.2 hi),
          List.drop_of_length_le hi, List.append_nil]
    | succ n ih =>
        intro i bytes hn
        have hi : i < b.data.toList.length := Nat.lt_of_sub_eq_succ hn
        have hget : b.get! i = b.data.toList[i] := getElem!_pos b.data i hi
        rw [ByteArray.toList.loop, if_pos (show i < b.size from hi), ih _ _ (by omega),
          List.drop_eq_getElem_cons hi, List.reverse_cons, List.append_assoc,
          List.singleton_append, hget]
  exact loop _ 0 [] rfl

theorem fromUTF8?_toUTF8 (s : String) : String.fromUTF8? s.toUTF8 = some s := by
  have hvalid : s.toUTF8.IsValidUTF8 := by
    rw [String.toUTF8_eq_toByteArray]
    exact s.isValidUTF8
  rw [String.fromUTF8?, dif_pos hvalid]
  rfl

namespace Json

/-- The bytes of a text are read as the text. -/
theorem textOfBytes_toUTF8 (s : String) : textOfBytes s.toUTF8.toList = s.toList := by
  have hbytes : (⟨s.toUTF8.toList.toArray⟩ : ByteArray) = s.toUTF8 := by
    rw [toList_byteArray, Array.toArray_toList]
  rw [textOfBytes, hbytes, fromUTF8?_toUTF8]

/-! ## Fields read back -/

@[simp] theorem toWord?_ofWord (n : UInt64) : (Json.number (ofWord n)).toWord? = some n := by
  have hread := Text.readWord_natDigits n
  simp [toWord?, ofWord, JsonNumber.isInteger, hread, Except.toOption]

@[simp] theorem toText?_string (s : String) : (Json.string (some s)).toText? = some s := rfl

@[simp] theorem toBool?_bool (b : Bool) : (Json.bool b).toBool? = some b := rfl

@[simp] theorem toInstant?_rowText (i : Instant) :
    (Json.string (some i.rowText)).toInstant? = some i := by
  simp [toInstant?, Instant.ofText?_rowText]

@[simp] theorem toDecimal?_toText (d : Decimal) :
    (Json.string (some d.toText)).toDecimal? = some d.plainZero := by
  simp [Json.toDecimal?, Decimal.ofText?_toText]

theorem reads_instant (i : Instant) : Reads i.writeRow (.string (some i.rowText)) :=
  reads_writeString i.rowText

theorem reads_decimal (d : Decimal) : Reads d.writeRow (.string (some d.toText)) :=
  reads_writeString d.toText

/-- The value of a field that can be empty. -/
def ofOptional {α : Type} (value : α → Json) (a : Option α) : Json := a.elim .null value

theorem reads_writeOptional {α : Type} {write : α → List Char} {value : α → Json}
    (h : ∀ a, Reads (write a) (value a)) (a : Option α) :
    Reads (writeOptional write a) (ofOptional value a) := by
  cases a with
  | none => exact reads_null
  | some a => exact h a

@[simp] theorem toOptional?_word (n : Option UInt64) :
    toOptional? toWord? (ofOptional (fun n => .number (ofWord n)) n) = some n := by
  cases n with
  | none => rfl
  | some n => simp [ofOptional, toOptional?]

@[simp] theorem toOptional?_rowText (i : Option Instant) :
    toOptional? toInstant? (ofOptional (fun i => .string (some i.rowText)) i) = some i := by
  cases i with
  | none => rfl
  | some i => simp [ofOptional, toOptional?]

end Json

namespace Archive

open Json

/-- A row that is written as an object is read from its bytes as it is read from the object. -/
theorem decodeRow_of_object {α : Type} [RowText α] {row read : α} (members : List Member)
    (hne : members ≠ []) (write : RowText.write row = writeObject (texts members))
    (reads : ∀ member ∈ members, Reads member.2.1 member.2.2)
    (ofJson : RowText.ofJson? (.object (values members)) = some read) :
    decodeRow (encodeRow row) = .ok read := by
  rw [decodeRow, RowText.ofBytes?, readBytes?, encodeRow, textOfBytes_toUTF8, RowText.toText,
    String.toList_ofList, write, read?_writeObject hne reads, Option.bind_some, ofJson]

end Archive

open Json

namespace Item

def members (item : Item) : List Member :=
  [("id", writeWord item.id, .number (ofWord item.id)),
    ("title", writeString item.title, .string (some item.title)),
    ("available", writeBool item.available, .bool item.available)]

theorem reads_members (item : Item) : ∀ member ∈ item.members, Reads member.2.1 member.2.2 := by
  simp only [members, List.forall_mem_cons]
  exact ⟨reads_writeWord _, reads_writeString _, reads_writeBool _, nofun⟩

theorem ofJson?_members (item : Item) : ofJson? (.object (values item.members)) = some item := by
  have hnodup : ["id", "title", "available"].Nodup := by decide
  have hfields := fields?_object item.members hnodup
  simp only [members, List.map_cons, List.map_nil] at hfields
  simp only [ofJson?, members, hfields, Option.bind_eq_bind, Option.bind_some, toWord?_ofWord,
    toText?_string, toBool?_bool]
  rfl

/-- An item is read back from its bytes. -/
theorem decodeRow_encodeRow (item : Item) :
    Archive.decodeRow (Archive.encodeRow item) = .ok item :=
  Archive.decodeRow_of_object item.members (List.cons_ne_nil _ _) rfl item.reads_members
    item.ofJson?_members

end Item

namespace Rental

def members (rental : Rental) : List Member :=
  [("id", writeWord rental.id, .number (ofWord rental.id)),
    ("item_id", writeWord rental.itemId, .number (ofWord rental.itemId)),
    ("renter_id", writeWord rental.renterId, .number (ofWord rental.renterId)),
    ("rented_at", rental.rentedAt.writeRow, .string (some rental.rentedAt.rowText)),
    ("returned_at", writeOptional Instant.writeRow rental.returnedAt,
      ofOptional (fun i => .string (some i.rowText)) rental.returnedAt)]

theorem reads_members (rental : Rental) :
    ∀ member ∈ rental.members, Reads member.2.1 member.2.2 := by
  simp only [members, List.forall_mem_cons]
  exact ⟨reads_writeWord _, reads_writeWord _, reads_writeWord _, reads_instant _,
    reads_writeOptional reads_instant _, nofun⟩

theorem ofJson?_members (rental : Rental) :
    ofJson? (.object (values rental.members)) = some rental := by
  have hnodup : ["id", "item_id", "renter_id", "rented_at", "returned_at"].Nodup := by decide
  have hfields := fields?_object rental.members hnodup
  simp only [members, List.map_cons, List.map_nil] at hfields
  simp only [ofJson?, members, hfields, Option.bind_eq_bind, Option.bind_some, toWord?_ofWord,
    toInstant?_rowText, Option.getD_some, toOptional?_rowText]
  rfl

/-- A rental is read back from its bytes. -/
theorem decodeRow_encodeRow (rental : Rental) :
    Archive.decodeRow (Archive.encodeRow rental) = .ok rental :=
  Archive.decodeRow_of_object rental.members (List.cons_ne_nil _ _) rfl rental.reads_members
    rental.ofJson?_members

end Rental

namespace Fee

def members (fee : Fee) : List Member :=
  [("id", writeWord fee.id, .number (ofWord fee.id)),
    ("rental_id", writeWord fee.rentalId, .number (ofWord fee.rentalId)),
    ("amount", fee.amount.writeRow, .string (some fee.amount.toText)),
    ("reason", writeString fee.reason, .string (some fee.reason)),
    ("settlement", writeOptional writeWord fee.settlement,
      ofOptional (fun n => .number (ofWord n)) fee.settlement)]

theorem reads_members (fee : Fee) : ∀ member ∈ fee.members, Reads member.2.1 member.2.2 := by
  simp only [members, List.forall_mem_cons]
  exact ⟨reads_writeWord _, reads_writeWord _, reads_decimal _, reads_writeString _,
    reads_writeOptional reads_writeWord _, nofun⟩

theorem ofJson?_members (fee : Fee) : ofJson? (.object (values fee.members)) = some fee.plain := by
  have hnodup : ["id", "rental_id", "amount", "reason", "settlement"].Nodup := by decide
  have hfields := fields?_object fee.members hnodup
  simp only [members, List.map_cons, List.map_nil] at hfields
  simp only [ofJson?, members, hfields, Option.bind_eq_bind, Option.bind_some, toWord?_ofWord,
    toDecimal?_toText, toText?_string, Option.getD_some, toOptional?_word]
  rfl

/-- A fee is read back from its bytes, up to the sign of a zero. -/
theorem decodeRow_encodeRow (fee : Fee) :
    Archive.decodeRow (Archive.encodeRow fee) = .ok fee.plain :=
  Archive.decodeRow_of_object fee.members (List.cons_ne_nil _ _) rfl fee.reads_members
    fee.ofJson?_members

end Fee

namespace Invoice

def members (invoice : Invoice) : List Member :=
  [("id", writeWord invoice.id, .number (ofWord invoice.id)),
    ("renter_id", writeWord invoice.renterId, .number (ofWord invoice.renterId)),
    ("issued_at", invoice.issuedAt.writeRow, .string (some invoice.issuedAt.rowText)),
    ("total", invoice.total.writeRow, .string (some invoice.total.toText))]

theorem reads_members (invoice : Invoice) :
    ∀ member ∈ invoice.members, Reads member.2.1 member.2.2 := by
  simp only [members, List.forall_mem_cons]
  exact ⟨reads_writeWord _, reads_writeWord _, reads_instant _, reads_decimal _, nofun⟩

theorem ofJson?_members (invoice : Invoice) :
    ofJson? (.object (values invoice.members)) = some invoice.plain := by
  have hnodup : ["id", "renter_id", "issued_at", "total"].Nodup := by decide
  have hfields := fields?_object invoice.members hnodup
  simp only [members, List.map_cons, List.map_nil] at hfields
  simp only [ofJson?, members, hfields, Option.bind_eq_bind, Option.bind_some, toWord?_ofWord,
    toInstant?_rowText, toDecimal?_toText]
  rfl

/-- An invoice is read back from its bytes, up to the sign of a zero. -/
theorem decodeRow_encodeRow (invoice : Invoice) :
    Archive.decodeRow (Archive.encodeRow invoice) = .ok invoice.plain :=
  Archive.decodeRow_of_object invoice.members (List.cons_ne_nil _ _) rfl invoice.reads_members
    invoice.ofJson?_members

end Invoice

/-! ## Looking at written tables -/

namespace Archive

/-- The rows of a table with their identifiers, in the order of their keys. -/
def rows (α : Type) [RowText α] (a : Archive) (name : TableName) :
    Except Error (List (UInt64 × α)) :=
  (a.table name).rows.mapM fun row => do return (← decodeId row.1, ← decodeRow row.2)

section Written

variable {α : Type} [RowText α] {p : α → α} {a : Archive} {name : TableName}
  {t : Table UInt64 α}

theorem mapM_ok {β γ : Type} {f : β → Except Error γ} {g : β → γ} {list : List β}
    (h : ∀ b ∈ list, f b = .ok (g b)) : list.mapM f = .ok (list.map g) := by
  induction list with
  | nil => rfl
  | cons b list ih =>
      rw [List.forall_mem_cons] at h
      rw [List.mapM_cons, h.1, ih h.2]
      rfl

variable (read : ∀ row : α, decodeRow (encodeRow row) = .ok (p row))
  (written : a.table name = t.written)

include read written

theorem row?_written (id : UInt64) : a.row? α name id = .ok ((t.get? id).map p) := by
  rw [row?, written, Table.get?_written]
  cases t.get? id with
  | none => rfl
  | some row => simp only [Option.map_some, read, Except.map]

theorem scan_written : a.scan α name = .ok (t.values.map p) := by
  rw [scan, written, Table.values_written, List.mapM_map]
  exact mapM_ok fun row _ => read row

theorem rows_written : a.rows α name = .ok (t.rows.map fun row => (row.1, p row.2)) := by
  rw [rows, written, Table.written, List.mapM_map]
  refine mapM_ok fun row _ => ?_
  rw [Function.comp_apply, decodeId_encodeId, read]
  rfl

end Written

/-- The archive holds the tables: the same rows under the same identifiers in the same order, up to
the sign of zeros. -/
structure Holds (a : Archive) (t : Tables) : Prop where
  items : a.rows Item .items = .ok t.items.rows
  rentals : a.rows Rental .rentals = .ok t.rentals.rows
  fees : a.rows Fee .fees = .ok (t.fees.rows.map fun row => (row.1, row.2.plain))
  invoices : a.rows Invoice .invoices = .ok (t.invoices.rows.map fun row => (row.1, row.2.plain))

/-- An archive holds the tables that were written to it. -/
theorem holds_ofTables (t : Tables) : (ofTables t).Holds t where
  items := by
    rw [rows_written (p := id) Item.decodeRow_encodeRow rfl]
    exact congrArg Except.ok (List.map_id _)
  rentals := by
    rw [rows_written (p := id) Rental.decodeRow_encodeRow rfl]
    exact congrArg Except.ok (List.map_id _)
  fees := rows_written Fee.decodeRow_encodeRow rfl
  invoices := rows_written Invoice.decodeRow_encodeRow rfl

end Archive

namespace Store

variable (t : Tables)

@[simp] theorem item?_ofTables (key : ItemId) :
    (archive (.ofTables t)).item? key = .ok (t.items.get? key) := by
  rw [item?, Archive.row?_written (p := id) Item.decodeRow_encodeRow rfl, Option.map_id]
  rfl

@[simp] theorem rental?_ofTables (key : RentalId) :
    (archive (.ofTables t)).rental? key = .ok (t.rentals.get? key) := by
  rw [rental?, Archive.row?_written (p := id) Rental.decodeRow_encodeRow rfl, Option.map_id]
  rfl

@[simp] theorem fee?_ofTables (key : FeeId) :
    (archive (.ofTables t)).fee? key = .ok ((t.fees.get? key).map Fee.plain) :=
  Archive.row?_written Fee.decodeRow_encodeRow rfl key

@[simp] theorem items_ofTables : (archive (.ofTables t)).items = .ok t.items.values := by
  rw [items, Archive.scan_written (p := id) Item.decodeRow_encodeRow rfl, List.map_id]

@[simp] theorem rentals_ofTables : (archive (.ofTables t)).rentals = .ok t.rentals.values := by
  rw [rentals, Archive.scan_written (p := id) Rental.decodeRow_encodeRow rfl, List.map_id]

@[simp] theorem fees_ofTables :
    (archive (.ofTables t)).fees = .ok (t.fees.values.map Fee.plain) :=
  Archive.scan_written Fee.decodeRow_encodeRow rfl

@[simp] theorem invoices_ofTables :
    (archive (.ofTables t)).invoices = .ok (t.invoices.values.map Invoice.plain) :=
  Archive.scan_written Invoice.decodeRow_encodeRow rfl

end Store

end RentalDesk
