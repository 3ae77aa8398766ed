import RentalDesk.Rows
import RentalDesk.Table

/-!
# The tables of a desk

Items, rentals, fees and invoices, each under its identifier. The same four tables hold what is
committed and what a transaction has staged; committing merges the staged rows into the committed
ones.
-/

namespace RentalDesk

/-- The rows of a desk. -/
structure Tables where
  items : Table ItemId Item
  rentals : Table RentalId Rental
  fees : Table FeeId Fee
  invoices : Table InvoiceId Invoice

namespace Tables

def empty : Tables := ⟨.empty, .empty, .empty, .empty⟩

def isEmpty (t : Tables) : Bool :=
  t.items.isEmpty && t.rentals.isEmpty && t.fees.isEmpty && t.invoices.isEmpty

/-- The rows with all rows of `news`, which win over the rows that are there. -/
def merge (t news : Tables) : Tables where
  items := t.items.merge news.items
  rentals := t.rentals.merge news.rentals
  fees := t.fees.merge news.fees
  invoices := t.invoices.merge news.invoices

/-- The rows with an item, instead of the item of its identifier. -/
def putItem (t : Tables) (item : Item) : Tables := { t with items := t.items.insert item.id item }

/-- The rows with a rental, instead of the rental of its identifier. -/
def putRental (t : Tables) (rental : Rental) : Tables :=
  { t with rentals := t.rentals.insert rental.id rental }

/-- The rows with a fee, instead of the fee of its identifier. -/
def putFee (t : Tables) (fee : Fee) : Tables := { t with fees := t.fees.insert fee.id fee }

/-- The rows with an invoice, instead of the invoice of its identifier. -/
def putInvoice (t : Tables) (invoice : Invoice) : Tables :=
  { t with invoices := t.invoices.insert invoice.id invoice }

end Tables

end RentalDesk
