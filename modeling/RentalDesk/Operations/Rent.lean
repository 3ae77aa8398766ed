import RentalDesk.Operations.Checked

/-!
# Renting

Renting an item takes it from the shelf and records an open rental with its base fee. The item is
locked before it is looked at, so of two requests for one item only one finds it on the shelf. The
clock is read under the lock.
-/

namespace RentalDesk

/-- The outcome of renting. -/
structure Rented where
  rentalId : RentalId
  feeId : FeeId
  baseFee : Decimal
deriving DecidableEq

def baseFeeReason : String := "Rental start fee"

namespace Operation

/-- Whether the item is registered. If that cannot be found out, it counts as registered, for the
transaction will come across the same fault and report it. -/
def isKnown (id : ItemId) : Operation Bool := do
  match ← ExceptT.lift (checked .item (look (.item id))).run with
  | .ok item => return item.isSome
  | .error _ => return true

end Operation

namespace Terms

open Operation

def rentBody (terms : Terms) (renter : RenterId) (id : ItemId) : Operation Rented := do
  match ← lockItem id with
  | none => throw (.itemUnavailable id)
  | some item =>
    unless item.available do throw (.itemUnavailable id)
    checked .updateItem (Transaction.updateItem { item with available := false })
    let now ← perform .now
    let rental ← checked .insertRental (Transaction.insertRental ⟨id, renter, now⟩)
    let fee ← checked .insertFee
      (Transaction.insertFee ⟨rental.id, terms.tariff.baseFee, baseFeeReason⟩)
    return ⟨rental.id, fee.id, fee.amount⟩

def rent (terms : Terms) (renter : RenterId) (id : ItemId) : Operation Rented := do
  if id = 0 then throw (.invalidId .item)
  if renter = 0 then throw (.invalidId .renter)
  unless ← isKnown id do throw (.itemUnavailable id)
  transaction (terms.rentBody renter id)

end Terms

end RentalDesk
