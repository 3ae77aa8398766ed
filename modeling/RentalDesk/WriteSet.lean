import RentalDesk.Error
import RentalDesk.RowLocks
import RentalDesk.Tables

/-!
# Write sets

What an open transaction has to itself: the row locks that it holds, the rows that it has inserted
and the rows that it has staged. A row can be written if the transaction holds its lock or has
inserted it, for nobody else knows an inserted row. A fee that is settled, in the write set or
else among the committed rows, keeps its settlement.
-/

namespace RentalDesk

/-- The private state of a transaction. -/
structure WriteSet where
  held : List Ticket
  inserted : List RowKey
  staged : Tables

namespace WriteSet

/-- The write set of a transaction that has done nothing. -/
def empty : WriteSet := ⟨[], [], .empty⟩

def holds (w : WriteSet) (key : RowKey) : Bool :=
  w.held.any (·.key = key) || w.inserted.contains key

def hold (w : WriteSet) (t : Ticket) : WriteSet := { w with held := w.held ++ [t] }

/-- Refuses a row that the transaction cannot write. -/
def checkWritable (w : WriteSet) (key : RowKey) : Except Error Unit :=
  if w.holds key then .ok () else .error (.storage (.unlocked key))

def stageItem (w : WriteSet) (item : Item) : Except Error WriteSet := do
  w.checkWritable (.item item.id)
  return { w with staged := w.staged.putItem item }

def stageRental (w : WriteSet) (rental : Rental) : Except Error WriteSet := do
  w.checkWritable (.rental rental.id)
  return { w with staged := w.staged.putRental rental }

/-- Whether the fee has a settlement and the new one differs from it. -/
def altersSettlement (previous fee : Fee) : Bool :=
  previous.settlement.isSome && previous.settlement != fee.settlement

/-- Stages a fee, given the committed row if there is one. -/
def stageFee (w : WriteSet) (fee : Fee) (committed : Option Fee) : Except Error WriteSet := do
  w.checkWritable (.fee fee.id)
  match (w.staged.fees.get? fee.id).or committed with
  | some previous => if altersSettlement previous fee then throw (.storage (.settled fee.id))
  | none => pure ()
  return { w with staged := w.staged.putFee fee }

def insertRental (w : WriteSet) (rental : Rental) : WriteSet :=
  { w with inserted := .rental rental.id :: w.inserted, staged := w.staged.putRental rental }

def insertFee (w : WriteSet) (fee : Fee) : WriteSet :=
  { w with inserted := .fee fee.id :: w.inserted, staged := w.staged.putFee fee }

/-- Stages a new invoice. Invoices are never written again, so they have no lock. -/
def insertInvoice (w : WriteSet) (invoice : Invoice) : WriteSet :=
  { w with staged := w.staged.putInvoice invoice }

end WriteSet

end RentalDesk
