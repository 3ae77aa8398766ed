import RentalDesk.Answering
import RentalDesk.Operations.Register
import RentalDesk.Serving
import RentalDesk.Shop
import RentalDesk.Snapshot

/-!
# Steps of a script

A script exercises a desk step by step: it makes requests, works on transactions of its own, lets
requests run beside the steps, moves the clock and the timer, makes store calls fail, and closes
and opens the archive. Every step has an answer.
-/

namespace RentalDesk.Script

/-- A request that can be made as a step or run beside the steps. -/
inductive Call where
  | rent (renter : RenterId) (item : ItemId)
  | pay (fee : FeeId) (renter : RenterId)
  | send (line : String)
deriving DecidableEq

/-- A look at the desk or its store. -/
inductive Query where
  | listFees (renter : RenterId)
  | listRentals (renter : RenterId)
  | listInvoices (renter : RenterId)
  | listItems
  | storedFees (renter : RenterId)
  | storedRentals (renter : RenterId)
  | storedInvoices (renter : RenterId)
  | item (id : ItemId)
  | known (id : ItemId)
deriving DecidableEq

/-- A call of a transaction that the script works on itself. -/
inductive Move where
  | lockItem (id : ItemId)
  | lockFee (id : FeeId)
  | insertRental (rental : NewRental)
  | insertFee (fee : NewFee)
  | insertInvoice (invoice : NewInvoice)
  | updateItem (item : Item)
  | updateRental (rental : Rental)
  | updateFee (fee : Fee)
  | commit
  | rollback
  | drop
deriving DecidableEq

/-- Whether a call ends its transaction. -/
def Move.isLast : Move → Bool
  | .commit | .rollback | .drop => true
  | _ => false

/-- A value that is written into a closed archive under a key, or the deletion of a key. -/
structure Edit where
  table : TableName
  key : Bytes
  value : Option Bytes
deriving DecidableEq

/-- A step of a script. Jobs and transactions go by names. -/
inductive Step where
  | call (call : Call)
  | query (query : Query)
  | register (item : Item)
  | seed (source : Bytes)
  /-- Moves the clock by so many nanoseconds. -/
  | advance (nanos : Int)
  /-- Sets the clock to so many nanoseconds after the start of 1970. -/
  | setClock (nanos : Int)
  /-- The store calls that fail from now on. -/
  | fail (calls : List StoreCall)
  | returned (item : ItemId)
  /-- Takes the announced returns. -/
  | events
  /-- Serves a stream to a client that reads the replies or is gone. -/
  | serve (stream : Bytes) (closed : Bool)
  /-- Serves connections over the network. -/
  | connections (streams : List Bytes)
  | snapshot (renters : List RenterId)
  | begin (transaction : String)
  | move (transaction : String) (move : Move)
  | spawn (job : String) (call : Call)
  | isDone (job : String)
  | join (job : String)
  | cancel (job : String)
  /-- Lets so many milliseconds pass on the timer. -/
  | pass (millis : Nat)
  | reopen
  | rows
  | edit (edits : List Edit)
  | openAgain

/-- The answer to a step. -/
inductive Answer where
  | rented (result : Except Error Rented)
  | settled (result : Except Error Settlement)
  | reply (reply : Reply)
  | feeViews (result : Except Error (List FeeView))
  | rentalViews (result : Except Error (List RentalView))
  | items (result : Except Error (List Item))
  | rentals (result : Except Error (List Rental))
  | invoices (result : Except Error (List Invoice))
  | fees (result : Except Error (List (Fee × Rental)))
  | item (result : Except Error (Option Item))
  | fee (result : Except Error (Option (Fee × Rental)))
  | newRental (result : Except Error Rental)
  | newFee (result : Except Error Fee)
  | newInvoice (result : Except Error Invoice)
  | flag (result : Except Error Bool)
  | count (result : Except Error Nat)
  | finished (result : Except Error Unit)
  /-- The new time, or nothing if the calendar does not reach so far. -/
  | clock (time : Option Instant)
  | events (returns : Returns)
  | served (served : Served)
  | outputs (result : Except Error (List String))
  | snapshot (snapshot : Snapshot)
  | rows (tables : List (TableName × List (Bytes × Bytes)))
  /-- The answer to the request of a job. -/
  | joined (answer : Answer)

def Call.task (terms : Terms) : Call → Task Answer
  | .rent renter item => return .rented (← (terms.rent renter item).run)
  | .pay fee renter => return .settled (← (terms.pay fee renter).run)
  | .send line => return .reply (← terms.answerLine line.toList)

def Query.task (terms : Terms) : Query → Task Answer
  | .listFees renter => return .feeViews (← (terms.listFees renter).run)
  | .listRentals renter => return .rentalViews (← (Operation.listRentals renter).run)
  | .listInvoices renter => return .invoices (← (Operation.listInvoices renter).run)
  | .listItems => return .items (← Operation.listItems.run)
  | .storedFees renter => return .fees (← (terms.feesOfRenter renter).run)
  | .storedRentals renter => return .rentals (← (Operation.rentalsOfRenter renter).run)
  | .storedInvoices renter => return .invoices (← (Operation.invoicesOfRenter renter).run)
  | .item id => return .item (← (Operation.checked .item (Operation.look (.item id))).run)
  | .known id => return .flag (← (Operation.isKnown id).run)

def Move.task : Move → Task Answer
  | .lockItem id => return .item (← (Transaction.lockItem id).run)
  | .lockFee id => return .fee (← (Transaction.lockFee id).run)
  | .insertRental rental => return .newRental (← (Transaction.insertRental rental).run)
  | .insertFee fee => return .newFee (← (Transaction.insertFee fee).run)
  | .insertInvoice invoice => return .newInvoice (← (Transaction.insertInvoice invoice).run)
  | .updateItem item => return .finished (← (Transaction.updateItem item).run)
  | .updateRental rental => return .finished (← (Transaction.updateRental rental).run)
  | .updateFee fee => return .finished (← (Transaction.updateFee fee).run)
  | .commit => return .finished (← Transaction.commit.run)
  | .rollback => return .finished (← Transaction.rollback.run)
  | .drop => return .finished (← Transaction.drop.run)

end RentalDesk.Script
