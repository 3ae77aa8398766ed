import RentalDesk.Decimal.Basic
import RentalDesk.Time.Instant

/-!
# Rows

The four kinds of rows that a rental desk keeps. An item is a film on the shelf or out of the
house; a rental is a possession of an item by a renter, open until the item comes back; a fee
belongs to a rental and is settled by at most one invoice. Every row has a 64-bit identifier in its
own table.
-/

namespace RentalDesk

abbrev ItemId := UInt64

abbrev RenterId := UInt64

abbrev RentalId := UInt64

abbrev FeeId := UInt64

abbrev InvoiceId := UInt64

/-- A film that can be rented. -/
structure Item where
  id : ItemId
  title : String
  available : Bool
deriving DecidableEq

/-- A possession of an item, open as long as there is no time of return. -/
structure Rental where
  id : RentalId
  itemId : ItemId
  renterId : RenterId
  rentedAt : Instant
  returnedAt : Option Instant
deriving DecidableEq

/-- What a renter owes for a rental. The settlement is the invoice that it was paid with. -/
structure Fee where
  id : FeeId
  rentalId : RentalId
  amount : Decimal
  reason : String
  settlement : Option InvoiceId
deriving DecidableEq

/-- The receipt of a settled fee. -/
structure Invoice where
  id : InvoiceId
  renterId : RenterId
  issuedAt : Instant
  total : Decimal
deriving DecidableEq

/-- An item as it enters the shelf. -/
def Item.new (id : ItemId) (title : String) : Item := ⟨id, title, true⟩

/-- Whether the item has not come back. -/
def Rental.isOpen (r : Rental) : Bool := r.returnedAt.isNone

/-- Whether the fee has been paid. -/
def Fee.isSettled (f : Fee) : Bool := f.settlement.isSome

/-- A rental before it has an identifier. -/
structure NewRental where
  itemId : ItemId
  renterId : RenterId
  rentedAt : Instant
deriving DecidableEq

/-- A fee before it has an identifier. -/
structure NewFee where
  rentalId : RentalId
  amount : Decimal
  reason : String
deriving DecidableEq

/-- An invoice before it has an identifier. -/
structure NewInvoice where
  renterId : RenterId
  issuedAt : Instant
  total : Decimal
deriving DecidableEq

/-- A new rental is open. -/
def NewRental.withId (r : NewRental) (id : RentalId) : Rental :=
  ⟨id, r.itemId, r.renterId, r.rentedAt, none⟩

/-- A new fee is not settled. -/
def NewFee.withId (f : NewFee) (id : FeeId) : Fee := ⟨id, f.rentalId, f.amount, f.reason, none⟩

def NewInvoice.withId (i : NewInvoice) (id : InvoiceId) : Invoice :=
  ⟨id, i.renterId, i.issuedAt, i.total⟩

end RentalDesk
