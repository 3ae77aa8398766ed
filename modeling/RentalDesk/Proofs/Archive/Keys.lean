import Mathlib.Data.Nat.Order.Lemmas
import Mathlib.Tactic.Ring
import RentalDesk.Archive
import RentalDesk.Proofs.Lookup

/-!
# Keys of an archive

The key of a row is read back as its identifier, and keys are in the order of their identifiers. So
a table is kept by writing every row under its key: `Table.written` is the table of bytes that comes
of it, and writing a row, or merging rows, commutes with writing the table.
-/

namespace RentalDesk

/-! ## Bytes as numbers -/

/-- The number that bytes stand for, the most significant byte first. -/
def bytesValue (bytes : Bytes) : Nat := bytes.foldl (fun n byte => n * 256 + byte.toNat) 0

theorem foldl_bytes (bytes : Bytes) (n : Nat) :
    bytes.foldl (fun n byte => n * 256 + byte.toNat) n =
      n * 256 ^ bytes.length + bytesValue bytes := by
  induction bytes generalizing n with
  | nil => simp [bytesValue]
  | cons byte bytes ih =>
      have hvalue : bytesValue (byte :: bytes) =
          (0 * 256 + byte.toNat) * 256 ^ bytes.length + bytesValue bytes := ih _
      rw [List.foldl_cons, ih, hvalue, List.length_cons, pow_succ]
      ring

theorem bytesValue_cons (byte : UInt8) (bytes : Bytes) :
    bytesValue (byte :: bytes) = byte.toNat * 256 ^ bytes.length + bytesValue bytes := by
  rw [bytesValue, List.foldl_cons, foldl_bytes, Nat.zero_mul, Nat.zero_add]

theorem bytesValue_lt (bytes : Bytes) : bytesValue bytes < 256 ^ bytes.length := by
  induction bytes with
  | nil => decide
  | cons byte bytes ih =>
      have hbyte : byte.toNat + 1 ≤ 256 := byte.toNat_lt
      have hmul := Nat.mul_le_mul_right (256 ^ bytes.length) hbyte
      rw [bytesValue_cons, List.length_cons, pow_succ]
      rw [Nat.add_mul, Nat.one_mul] at hmul
      omega

theorem UInt8.compare_toNat (a b : UInt8) : compare a b = compare a.toNat b.toNat := by
  simp [compare, compareOfLessAndEq, UInt8.lt_iff_toNat_lt, ← UInt8.toNat_inj]

theorem UInt64.compare_toNat (a b : UInt64) : compare a b = compare a.toNat b.toNat := by
  simp [compare, compareOfLessAndEq, UInt64.lt_iff_toNat_lt, ← UInt64.toNat_inj]

/-- Of two numbers with one more digit, the first digit decides unless it is the same. -/
theorem compare_digits {base a b m n : Nat} (hm : m < base) (hn : n < base) :
    compare (a * base + m) (b * base + n) = (compare a b).then (compare m n) := by
  rcases Nat.lt_trichotomy a b with h | rfl | h
  · have hmul := Nat.mul_le_mul_right base h
    rw [Nat.succ_mul] at hmul
    rw [Nat.compare_eq_lt.2 h, Nat.compare_eq_lt.2 (by omega)]
    rfl
  · rw [Nat.compare_eq_eq.2 rfl, Ordering.eq_then]
    rcases Nat.lt_trichotomy m n with h | rfl | h
    · rw [Nat.compare_eq_lt.2 h, Nat.compare_eq_lt.2 (by omega)]
    · rw [Nat.compare_eq_eq.2 rfl, Nat.compare_eq_eq.2 rfl]
    · rw [Nat.compare_eq_gt.2 h, Nat.compare_eq_gt.2 (by omega)]
  · have hmul := Nat.mul_le_mul_right base h
    rw [Nat.succ_mul] at hmul
    rw [Nat.compare_eq_gt.2 h, Nat.compare_eq_gt.2 (by omega)]
    rfl

/-- Bytes of one length are in the order of the numbers that they stand for. -/
theorem compare_bytesValue {a b : Bytes} (h : a.length = b.length) :
    compare a b = compare (bytesValue a) (bytesValue b) := by
  induction a generalizing b with
  | nil =>
      obtain rfl := List.length_eq_zero_iff.1 h.symm
      rfl
  | cons x a ih =>
      cases b with
      | nil => cases h
      | cons y b =>
          have hlength : a.length = b.length := Nat.succ.inj h
          have hx := bytesValue_lt a
          rw [hlength] at hx
          rw [bytesValue_cons, bytesValue_cons, hlength, compare_digits hx (bytesValue_lt b),
            ← ih hlength, ← UInt8.compare_toNat, List.compare_eq_compareLex,
            List.compareLex_cons_cons]

/-! ## Keys -/

namespace Archive

theorem length_encodeId (id : UInt64) : (encodeId id).length = 8 := rfl

theorem bytesValue_encodeId (id : UInt64) : bytesValue (encodeId id) = id.toNat := by
  have hid := id.toNat_lt
  simp only [bytesValue, encodeId, List.map_cons, List.map_nil, List.foldl_cons, List.foldl_nil,
    UInt64.toNat_toUInt8, UInt64.toNat_shiftRight, UInt64.reduceToNat, Nat.shiftRight_eq_div_pow,
    Nat.reduceMod, Nat.reducePow, Nat.zero_mod, Nat.div_one, zero_mul, zero_add]
  omega

/-- Keys are in the order of their identifiers. -/
theorem compare_encodeId (a b : UInt64) : compare (encodeId a) (encodeId b) = compare a b := by
  have hlength : (encodeId a).length = (encodeId b).length := rfl
  rw [compare_bytesValue hlength, bytesValue_encodeId, bytesValue_encodeId, UInt64.compare_toNat]

theorem encodeId_injective {a b : UInt64} (h : encodeId a = encodeId b) : a = b := by
  have hvalue := congrArg bytesValue h
  rw [bytesValue_encodeId, bytesValue_encodeId] at hvalue
  exact UInt64.toNat_inj.1 hvalue

theorem foldl_toUInt64 (bytes : Bytes) :
    bytes.foldl (fun id byte => id * 256 + byte.toUInt64) 0 = UInt64.ofNat (bytesValue bytes) := by
  refine List.foldl_hom UInt64.ofNat fun n byte => ?_
  rw [UInt64.ofNat_add, UInt64.ofNat_mul, UInt64.ofNat_uInt8ToNat]
  rfl

/-- A key is read back as its identifier. -/
theorem decodeId_encodeId (id : UInt64) : decodeId (encodeId id) = .ok id := by
  rw [decodeId, if_pos (length_encodeId id), foldl_toUInt64, bytesValue_encodeId,
    UInt64.ofNat_toNat]

end Archive

/-! ## Tables in bytes -/

namespace Table

open Archive

variable {α : Type} [RowText α]

omit [RowText α] in
theorem map_put {α' : Type} (f : α → α') (id : UInt64) (row : α) (rows : List (UInt64 × α)) :
    (put id row rows).map (fun row => (encodeId row.1, f row.2)) =
      put (encodeId id) (f row) (rows.map fun row => (encodeId row.1, f row.2)) := by
  induction rows with
  | nil => rfl
  | cons first rest ih =>
      rw [put, List.map_cons, put, compare_encodeId]
      cases compare id first.1 with
      | lt => rfl
      | eq => rfl
      | gt => exact congrArg _ ih

omit [RowText α] in
theorem find?_map {α' : Type} (f : α → α') (id : UInt64) (rows : List (UInt64 × α)) :
    find? (encodeId id) (rows.map fun row => (encodeId row.1, f row.2)) =
      (find? id rows).map f := by
  induction rows with
  | nil => rfl
  | cons first rest ih =>
      rw [List.map_cons, find?, find?, compare_encodeId]
      split
      · rfl
      · exact ih

/-- The table with every row written under its key. -/
def written (t : Table UInt64 α) : Table Bytes Bytes where
  rows := t.rows.map fun row => (encodeId row.1, encodeRow row.2)
  ascending := List.pairwise_map.2 (t.ascending.imp fun hlt => by rwa [compare_encodeId])

@[simp] theorem written_insert (t : Table UInt64 α) (id : UInt64) (row : α) :
    (t.insert id row).written = t.written.insert (encodeId id) (encodeRow row) := by
  simp only [written, insert, map_put]

@[simp] theorem get?_written (t : Table UInt64 α) (id : UInt64) :
    t.written.get? (encodeId id) = (t.get? id).map encodeRow :=
  find?_map encodeRow id t.rows

theorem merge_written (t : Table Bytes Bytes) (news : Table UInt64 α) :
    t.merge news.written =
      news.rows.foldl (fun t row => t.insert (encodeId row.1) (encodeRow row.2)) t :=
  List.foldl_map

@[simp] theorem written_merge (t news : Table UInt64 α) :
    (t.merge news).written = t.written.merge news.written := by
  rw [merge_written, merge]
  refine (List.foldl_hom written fun t row => ?_).symm
  exact (written_insert ..).symm

theorem values_written (t : Table UInt64 α) : t.written.values = t.values.map encodeRow := by
  simp [written, values]

end Table

namespace Archive

variable {α : Type} [RowText α]

@[simp] theorem table_setTable (a : Archive) (name other : TableName) (t : Table Bytes Bytes) :
    (a.setTable name t).table other = if other = name then t else a.table other := by
  cases name <;> cases other <;> rfl

@[simp] theorem table_putRow (a : Archive) (name other : TableName) (id : UInt64) (row : α) :
    (a.putRow name id row).table other =
      if other = name then (a.table name).insert (encodeId id) (encodeRow row)
      else a.table other :=
  table_setTable ..

/-- Writing rows merges them into their table. -/
@[simp] theorem table_putRows (a : Archive) (name other : TableName) (rows : Table UInt64 α) :
    (a.putRows name rows).table other =
      if other = name then (a.table name).merge rows.written else a.table other := by
  rw [putRows, Table.merge_written]
  induction rows.rows generalizing a with
  | nil =>
      split
      · next h => rw [h]; rfl
      · rfl
  | cons first rest ih =>
      rw [List.foldl_cons, ih, List.foldl_cons, table_putRow, table_putRow, if_pos rfl]
      split <;> rfl

/-- The archive of tables that are kept in memory. -/
def ofTables (t : Tables) : Archive :=
  ⟨t.items.written, t.rentals.written, t.fees.written, t.invoices.written⟩

theorem ext_table {a b : Archive} (h : ∀ name, a.table name = b.table name) : a = b := by
  cases a
  cases b
  congr
  · exact h .items
  · exact h .rentals
  · exact h .fees
  · exact h .invoices

/-- Committing merges what is staged into every table. -/
theorem table_apply (a : Archive) (staged : Tables) (name : TableName) :
    (a.apply staged).table name = (a.table name).merge ((ofTables staged).table name) := by
  cases name <;> simp only [apply, table_putRows, if_true, reduceCtorEq, if_false] <;> rfl

/-- Committing to an archive is committing to memory and writing it down. -/
theorem apply_ofTables (t staged : Tables) :
    (ofTables t).apply staged = ofTables (t.merge staged) := by
  refine ext_table fun name => ?_
  rw [table_apply]
  cases name
  all_goals exact (Table.written_merge ..).symm

theorem putItem_ofTables (t : Tables) (item : Item) :
    (ofTables t).putRow .items item.id item = ofTables (t.putItem item) := by
  refine ext_table fun name => ?_
  rw [table_putRow]
  cases name
  case items => exact (Table.written_insert ..).symm
  all_goals rfl

end Archive

end RentalDesk
