import RentalDesk.Operations.Checked
import RentalDesk.Reply

/-!
# Listings

Listings look at committed rows without locking them. A renter sees fees, rentals and invoices,
the newest first; the items of the desk are listed by their identifiers. The fee of an open rental
is shown with the amount that has accrued so far.
-/

namespace RentalDesk

def rentalsOf (renter : RenterId) (rentals : List Rental) : List Rental :=
  rentals.filter fun rental => rental.renterId = renter

def invoicesOf (renter : RenterId) (invoices : List Invoice) : List Invoice :=
  invoices.filter fun invoice => invoice.renterId = renter

/-- The fees of the given rentals, each with its rental. -/
def feesOf (rentals : List Rental) (fees : List Fee) : List (Fee × Rental) :=
  fees.filterMap fun fee =>
    (rentals.find? fun rental => rental.id = fee.rentalId).map fun rental => (fee, rental)

/-- The title of an item. Of several items with one identifier the last one counts. -/
def titleOf (items : List Item) (id : ItemId) : String :=
  ((items.reverse.find? fun item => item.id = id).map (·.title)).getD ""

/-- Fees by descending identifier. -/
def newestFees (fees : List FeeView) : List FeeView := fees.mergeSort fun a b => b.id ≤ a.id

/-- Invoices by descending identifier. -/
def newestInvoices (invoices : List Invoice) : List Invoice :=
  invoices.mergeSort fun a b => b.id ≤ a.id

/-- Rentals by descending time, and by descending identifier if they started together. -/
def newestRentals (rentals : List Rental) : List Rental :=
  rentals.mergeSort fun a b =>
    ((compare b.rentedAt a.rentedAt).then (compare b.id a.id)).isLE

/-- Items by ascending identifier. -/
def itemsById (items : List Item) : List Item := items.mergeSort fun a b => a.id ≤ b.id

/-- A fee as it is listed: with the live amount if it is unsettled and its rental open. -/
def Tariff.feeView (tariff : Tariff) (now : Instant) (fee : Fee) (rental : Rental) :
    Except Error FeeView := do
  let amount ←
    if rental.isOpen ∧ ¬ fee.isSettled then tariff.accrued fee.amount rental.rentedAt now
    else pure fee.amount
  return ⟨fee.id, rental.id, rental.itemId, amount, fee.reason, fee.isSettled⟩

namespace Operation

def rentalsOfRenter (renter : RenterId) : Operation (List Rental) :=
  checked .rentalsOfRenter do return rentalsOf renter (← look .rentals)

def invoicesOfRenter (renter : RenterId) : Operation (List Invoice) :=
  checked .invoicesOfRenter do return invoicesOf renter (← look .invoices)

def allItems : Operation (List Item) := checked .items (look .items)

def listItems : Operation (List Item) := do return itemsById (← allItems)

/-- The rentals of a renter with the titles of their items, newest first. -/
def listRentals (renter : RenterId) : Operation (List RentalView) := do
  if renter = 0 then return []
  let items ← allItems
  let rentals ← rentalsOfRenter renter
  return (newestRentals rentals).map fun rental => ⟨rental, titleOf items rental.itemId⟩

/-- The invoices of a renter, newest first. -/
def listInvoices (renter : RenterId) : Operation (List Invoice) := do
  if renter = 0 then return []
  return newestInvoices (← invoicesOfRenter renter)

end Operation

namespace Terms

open Operation

/-- The stored fees of a renter with their rentals. Memory shows both tables at one moment; an
archive is looked through table by table. -/
def feesOfRenter (terms : Terms) (renter : RenterId) : Operation (List (Fee × Rental)) :=
  checked .feesOfRenter do
    match terms.medium with
    | .memory =>
      let (fees, rentals) ← look .ledger
      return feesOf (rentalsOf renter rentals) fees
    | .archive =>
      let rentals ← look .rentals
      let fees ← look .fees
      return feesOf (rentalsOf renter rentals) fees

/-- The fees of a renter, newest first. -/
def listFees (terms : Terms) (renter : RenterId) : Operation (List FeeView) := do
  if renter = 0 then return []
  let fees ← terms.feesOfRenter renter
  let now ← perform .now
  let views ← ofExcept (fees.mapM fun (fee, rental) => terms.tariff.feeView now fee rental)
  return newestFees views

end Terms

end RentalDesk
