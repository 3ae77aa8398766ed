import RentalDesk.Operations.Checked
import RentalDesk.Decimal.Text

/-!
# Paying

Paying a fee issues its invoice and marks it settled. If the rental is still open, the amount that
has accrued is frozen into the fee, the rental is closed and the item goes back to the shelf, all
in the same transaction. A fee that is settled is reported as paid to whoever asks; a missing fee
and a fee of another renter are not told apart.
-/

namespace RentalDesk

/-- The outcome of paying. -/
structure Settlement where
  feeId : FeeId
  invoiceId : InvoiceId
  finalAmount : Decimal
  /-- The item that came back, if the rental was open. -/
  returnedItem : Option ItemId
deriving DecidableEq

/-- The reason of a fee whose rental was closed after so many minutes. -/
def closingReason (minutes : Decimal) : String :=
  "Rental fee for " ++ minutes.truncatedText ++ " min"

namespace Terms

open Operation

/-- Closes an open rental: the fee with the accrued amount, and the item that came back. -/
def closeRental (terms : Terms) (fee : Fee) (rental : Rental) (now : Instant) :
    Operation (Fee × ItemId) := do
  match ← lockItem rental.itemId with
  | none => throw (.storage (.missingItem rental.id rental.itemId))
  | some item =>
    let amount ← ofExcept (terms.tariff.accrued fee.amount rental.rentedAt now)
    let reason := closingReason (Tariff.elapsedMinutes rental.rentedAt now)
    checked .updateRental (Transaction.updateRental { rental with returnedAt := some now })
    checked .updateItem (Transaction.updateItem { item with available := true })
    return ({ fee with amount, reason }, item.id)

/-- Issues the invoice of a fee and settles the fee with it. -/
def settle (fee : Fee) (renter : RenterId) (now : Instant) : Operation InvoiceId := do
  let invoice ← checked .insertInvoice (Transaction.insertInvoice ⟨renter, now, fee.amount⟩)
  checked .updateFee (Transaction.updateFee { fee with settlement := some invoice.id })
  return invoice.id

def payBody (terms : Terms) (id : FeeId) (renter : RenterId) : Operation Settlement := do
  match ← checked .lockFee (Transaction.lockFee id) with
  | none => throw (.notOwner id)
  | some (fee, rental) =>
    if fee.isSettled then throw (.alreadyPaid id)
    if rental.renterId ≠ renter then throw (.notOwner id)
    let now ← perform .now
    if rental.isOpen then
      let (fee, item) ← terms.closeRental fee rental now
      return ⟨id, ← settle fee renter now, fee.amount, some item⟩
    else
      return ⟨id, ← settle fee renter now, fee.amount, none⟩

/-- Pays a fee on behalf of a renter, and announces the item that comes back by it. -/
def pay (terms : Terms) (id : FeeId) (renter : RenterId) : Operation Settlement := do
  if id = 0 ∨ renter = 0 then throw (.notOwner id)
  let settlement ← transaction (terms.payBody id renter)
  match settlement.returnedItem with
  | some item => perform (.announce item)
  | none => pure ()
  return settlement

end Terms

end RentalDesk
