import RentalDesk.Tariff
import RentalDesk.Transaction

/-!
# Checked store calls

The operations of the desk reach their store through calls each of which can be made to fail. Such
a call fails before it does anything, except that a failing commit rolls the transaction back and a
failing rollback rolls it back all the same. Whether a call fails is decided when it is made, not
after it has waited for a row.
-/

namespace RentalDesk

/-- The terms of a desk: its prices, and where it keeps its rows. -/
structure Terms where
  tariff : Tariff
  medium : Medium
deriving DecidableEq

namespace Operation

variable {α : Type}

/-- Whether a call is made to fail at present. -/
def fails (call : StoreCall) : Operation Bool := perform (.fails call)

/-- Fails if the call is made to fail at present. -/
def guard (call : StoreCall) : Operation Unit := do
  if ← fails call then
    throw (.storage (.injected call))

/-- A store call with what it does if it does not fail. -/
def checked (call : StoreCall) (operation : Operation α) : Operation α := do
  guard call
  operation

/-- Locks an item and reads it. The row may be hidden, as if there were none. -/
def lockItem (id : ItemId) : Operation (Option Item) :=
  checked .lockItem do
    let hidden ← fails .hideItem
    let item ← Transaction.lockItem id
    return if hidden then none else item

def commit : Operation Unit := do
  if ← fails .commit then
    Transaction.rollback
    throw (.storage (.injected .commit))
  Transaction.commit

def rollback : Operation Unit := do
  let failing ← fails .rollback
  Transaction.rollback
  if failing then
    throw (.storage (.injected .rollback))

/-- Runs the body of a transaction and commits it. If the body fails, the transaction is rolled
back, and the error of the body is the one that counts. -/
def transaction (body : Operation α) : Operation α := do
  guard .begin
  match ← ExceptT.lift body.run with
  | .ok a =>
    commit
    return a
  | .error e =>
    let _ ← ExceptT.lift rollback.run
    throw e

end Operation

end RentalDesk
