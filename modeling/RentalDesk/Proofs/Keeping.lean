import RentalDesk.Proofs.Archive.Rows

/-!
# Tables in either medium

`Tables.keptIn` is the store that holds given tables, in memory or written into an archive. Reading
it, committing to it and registering an item there come to the same for both media, except that an
archive gives a fee back without the sign of a negative zero.
-/

namespace RentalDesk

/-- The store that holds the tables. -/
def Tables.keptIn (t : Tables) : Medium → Store
  | .memory => .memory t
  | .archive => .archive (.ofTables t)

/-- A fee as it is read of the medium. -/
def Medium.fee : Medium → Fee → Fee
  | .memory, fee => fee
  | .archive, fee => fee.plain

@[simp] theorem Medium.id_fee (medium : Medium) (fee : Fee) : (medium.fee fee).id = fee.id := by
  cases medium <;> rfl

@[simp] theorem Medium.rentalId_fee (medium : Medium) (fee : Fee) :
    (medium.fee fee).rentalId = fee.rentalId := by
  cases medium <;> rfl

@[simp] theorem Medium.settlement_fee (medium : Medium) (fee : Fee) :
    (medium.fee fee).settlement = fee.settlement := by
  cases medium <;> rfl

/-- An invoice as it is read of the medium. -/
def Medium.invoice : Medium → Invoice → Invoice
  | .memory, invoice => invoice
  | .archive, invoice => invoice.plain

@[simp] theorem Medium.id_invoice (medium : Medium) (invoice : Invoice) :
    (medium.invoice invoice).id = invoice.id := by
  cases medium <;> rfl

@[simp] theorem Medium.renterId_invoice (medium : Medium) (invoice : Invoice) :
    (medium.invoice invoice).renterId = invoice.renterId := by
  cases medium <;> rfl

namespace Tables

variable (t : Tables) (medium : Medium)

@[simp] theorem item?_keptIn (id : ItemId) :
    (t.keptIn medium).item? id = .ok (t.items.get? id) := by
  cases medium with
  | memory => rfl
  | archive => exact Store.item?_ofTables t id

@[simp] theorem rental?_keptIn (id : RentalId) :
    (t.keptIn medium).rental? id = .ok (t.rentals.get? id) := by
  cases medium with
  | memory => rfl
  | archive => exact Store.rental?_ofTables t id

@[simp] theorem fee?_keptIn (id : FeeId) :
    (t.keptIn medium).fee? id = .ok ((t.fees.get? id).map medium.fee) := by
  cases medium with
  | memory => cases h : t.fees.get? id <;> simp [keptIn, Store.fee?, Medium.fee, h]
  | archive => exact Store.fee?_ofTables t id

@[simp] theorem items_keptIn : (t.keptIn medium).items = .ok t.items.values := by
  cases medium with
  | memory => rfl
  | archive => exact Store.items_ofTables t

@[simp] theorem rentals_keptIn : (t.keptIn medium).rentals = .ok t.rentals.values := by
  cases medium with
  | memory => rfl
  | archive => exact Store.rentals_ofTables t

@[simp] theorem fees_keptIn : (t.keptIn medium).fees = .ok (t.fees.values.map medium.fee) := by
  cases medium with
  | memory => exact congrArg Except.ok (List.map_id _).symm
  | archive => exact Store.fees_ofTables t

@[simp] theorem invoices_keptIn :
    (t.keptIn medium).invoices = .ok (t.invoices.values.map medium.invoice) := by
  cases medium with
  | memory => exact congrArg Except.ok (List.map_id _).symm
  | archive => exact Store.invoices_ofTables t

@[simp] theorem apply_keptIn (staged : Tables) :
    (t.keptIn medium).apply staged = (t.merge staged).keptIn medium := by
  cases medium with
  | memory => rfl
  | archive => exact congrArg Store.archive (Archive.apply_ofTables t staged)

@[simp] theorem putItem_keptIn (item : Item) :
    (t.keptIn medium).putItem item = (t.putItem item).keptIn medium := by
  cases medium with
  | memory => rfl
  | archive => exact congrArg Store.archive (Archive.putItem_ofTables t item)

theorem keptIn_empty : Tables.empty.keptIn medium = .empty medium := by
  cases medium <;> rfl

end Tables

end RentalDesk
