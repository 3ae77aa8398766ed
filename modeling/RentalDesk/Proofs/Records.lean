import RentalDesk.Proofs.Archive.Keys
import RentalDesk.Store

/-!
# Records

What a store keeps under the key of a row is one thing: memory keeps the row itself, and an archive
keeps bytes, which need not be the text of a row. Two stores that keep the same under a key answer
alike when the row is read. Committing and registering are described by the records afterwards.
-/

namespace RentalDesk

/-- What a store keeps under the key of a row. -/
inductive Record where
  | row (row : Row)
  | value (bytes : Bytes)
deriving DecidableEq

/-- The record that a row becomes. -/
def Row.record (medium : Medium) (row : Row) : Record :=
  match medium, row with
  | .memory, row => .row row
  | .archive, .item row => .value (Archive.encodeRow row)
  | .archive, .rental row => .value (Archive.encodeRow row)
  | .archive, .fee row => .value (Archive.encodeRow row)

namespace RowKey

/-- The series that numbers the rows of the key's table. Items are not numbered. -/
def series? : RowKey → Option Series
  | .item _ => none
  | .rental _ => some .rentals
  | .fee _ => some .fees

def tableName : RowKey → TableName
  | .item _ => .items
  | .rental _ => .rentals
  | .fee _ => .fees

end RowKey

namespace Store

def record? (s : Store) (key : RowKey) : Option Record :=
  match s with
  | .memory tables => (tables.row? key).map .row
  | .archive files => ((files.table key.tableName).get? (Archive.encodeId key.id)).map .value

@[simp] theorem medium_apply (s : Store) (staged : Tables) :
    (s.apply staged).medium = s.medium := by
  cases s <;> rfl

@[simp] theorem medium_putItem (s : Store) (item : Item) :
    (s.putItem item).medium = s.medium := by
  cases s <;> rfl

/-- After a commit the staged rows are kept under their keys, and all else as it was. -/
theorem record?_apply (s : Store) (staged : Tables) (key : RowKey) :
    (s.apply staged).record? key =
      ((staged.row? key).map (Row.record s.medium)).or (s.record? key) := by
  cases s with
  | memory tables =>
      simp only [apply, record?, Tables.row?_merge]
      cases staged.row? key <;> rfl
  | archive files =>
      simp only [apply, record?, Archive.table_apply, Table.get?_merge]
      cases key with
      | item id =>
          have hget := staged.items.get?_written id
          simp only [Archive.ofTables, Archive.table, RowKey.tableName, RowKey.id,
            Tables.row?] at hget ⊢
          rw [hget]
          cases staged.items.get? id <;> rfl
      | rental id =>
          have hget := staged.rentals.get?_written id
          simp only [Archive.ofTables, Archive.table, RowKey.tableName, RowKey.id,
            Tables.row?] at hget ⊢
          rw [hget]
          cases staged.rentals.get? id <;> rfl
      | fee id =>
          have hget := staged.fees.get?_written id
          simp only [Archive.ofTables, Archive.table, RowKey.tableName, RowKey.id,
            Tables.row?] at hget ⊢
          rw [hget]
          cases staged.fees.get? id <;> rfl

theorem record?_apply_of_unstaged {staged : Tables} {key : RowKey} (h : staged.row? key = none)
    (s : Store) : (s.apply staged).record? key = s.record? key := by
  rw [record?_apply, h]
  rfl

theorem record?_putItem_of_ne {item : Item} {key : RowKey} (h : key ≠ .item item.id) (s : Store) :
    (s.putItem item).record? key = s.record? key := by
  cases s with
  | memory tables => simp only [putItem, record?, Tables.row?_putItem, if_neg h]
  | archive files =>
      simp only [putItem, record?, Archive.table_putRow]
      cases key with
      | item id =>
          have hne : Archive.encodeId id ≠ Archive.encodeId item.id := fun e =>
            h (congrArg RowKey.item (Archive.encodeId_injective e))
          simp [RowKey.tableName, RowKey.id, hne]
      | rental id => rfl
      | fee id => rfl

/-- Who keeps no row of an item finds none. -/
theorem record?_of_item?_eq_none {s : Store} {id : ItemId} (h : s.item? id = .ok none) :
    s.record? (.item id) = none := by
  cases s with
  | memory tables =>
      simp only [item?, Except.ok.injEq] at h
      simp [record?, Tables.row?, h]
  | archive files =>
      simp only [item?, Archive.row?] at h
      rw [record?, RowKey.tableName, RowKey.id]
      split at h
      · next value hvalue =>
          rw [Archive.decodeRow] at h
          cases hrow : (RowText.ofBytes? value : Option Item) with
          | some row =>
              rw [hrow] at h
              cases h
          | none =>
              rw [hrow] at h
              cases h
      · next hnone => rw [hnone]; rfl

end Store

end RentalDesk
