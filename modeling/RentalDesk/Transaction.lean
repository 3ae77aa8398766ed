import RentalDesk.Task

/-!
# Transactions

A transaction locks rows, reads and stages them, and ends by committing all of what it has staged
or none of it. The rental of a fee is locked after the fee. Locks are given back only when the
staged rows are visible, so whoever waited for a row reads what was committed.
-/

namespace RentalDesk.Transaction

open Operation

def lockItem (id : ItemId) : Operation (Option Item) := do
  acquire (.item id)
  ofExcept (← perform (.readItem id))

def lockFee (id : FeeId) : Operation (Option (Fee × Rental)) := do
  acquire (.fee id)
  match ← ofExcept (← perform (.readFee id)) with
  | none => return none
  | some fee =>
    acquire (.rental fee.rentalId)
    match ← ofExcept (← perform (.readRental fee.rentalId)) with
    | none => throw (.storage (.missingRental fee.id fee.rentalId))
    | some rental => return some (fee, rental)

def insertRental (rental : NewRental) : Operation Rental := perform (.insertRental rental)

def insertFee (fee : NewFee) : Operation Fee := perform (.insertFee fee)

def insertInvoice (invoice : NewInvoice) : Operation Invoice := perform (.insertInvoice invoice)

def updateItem (item : Item) : Operation Unit := do ofExcept (← perform (.updateItem item))

def updateRental (rental : Rental) : Operation Unit := do
  ofExcept (← perform (.updateRental rental))

def updateFee (fee : Fee) : Operation Unit := do ofExcept (← perform (.updateFee fee))

/-- Makes the staged rows visible and ends the transaction. -/
def commit : Operation Unit := do
  perform .apply
  perform .release

/-- Ends the transaction and forgets what it has staged. -/
def rollback : Operation Unit := perform .release

def drop : Operation Unit := perform .discard

end RentalDesk.Transaction
