import RentalDesk.Operations.Listings

/-!
# Snapshots

A snapshot shows what a store holds at a moment. Memory shows everything, except the fees and the
invoices of renters without a rental, and counts all invoices. An archive shows the rentals, fees
and invoices of the renters that it is asked for. What it cannot read it shows as empty.
-/

namespace RentalDesk

/-- What a store holds, by identifier. -/
structure Snapshot where
  items : List Item
  rentals : List Rental
  fees : List Fee
  invoices : List Invoice
  invoiceCount : Option Nat
deriving DecidableEq

namespace Snapshot

def readable {α : Type} (rows : Except Error (List α)) : List α := rows.toOption.getD []

/-- Rows by ascending identifier. -/
def byId {α : Type} (id : α → UInt64) (rows : List α) : List α :=
  rows.mergeSort fun a b => id a ≤ id b

/-- What memory holds. -/
def ofTables (tables : Tables) : Snapshot :=
  let rentals := tables.rentals.values
  let fees := (feesOf rentals tables.fees.values).map (·.1)
  let renters := rentals.map (·.renterId)
  let invoices := tables.invoices.values.filter fun invoice => renters.contains invoice.renterId
  ⟨tables.items.values, rentals, fees, invoices, some tables.invoices.size⟩

/-- What an archive holds of the given renters, each of whom is looked at once. -/
def ofArchive (files : Archive) (renters : List RenterId) : Snapshot :=
  let renters := (byId (fun renter => renter) renters).eraseDups
  let items := files.scan Item .items
  let rentals := files.scan Rental .rentals
  let fees := do
    let rentals ← rentals
    let fees ← files.scan Fee .fees
    return (renters.map fun renter =>
      (feesOf (rentalsOf renter rentals) fees).map (·.1)).flatten
  let invoices := files.scan Invoice .invoices
  ⟨readable items,
    byId Rental.id (readable (rentals.map fun rows =>
      (renters.map fun renter => rentalsOf renter rows).flatten)),
    byId Fee.id (readable fees),
    byId Invoice.id (readable (invoices.map fun rows =>
      (renters.map fun renter => invoicesOf renter rows).flatten)),
    none⟩

def ofStore (store : Store) (renters : List RenterId) : Snapshot :=
  match store with
  | .memory tables => ofTables tables
  | .archive files => ofArchive files renters

end Snapshot

end RentalDesk
