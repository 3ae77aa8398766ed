import RentalDesk.Store
import RentalDesk.WriteSet

/-!
# Tasks

What is done at the desk is written as a task: a finite tree of requests with typed answers. A
task asks for actions, each of which is done at once and as a whole, and for row locks, for which
it may have to wait; the answer to the latter says whether the row was granted. Tasks of different
requests can be interleaved between any two of their requests, and a task can be dropped at each
of them.
-/

namespace RentalDesk

/-- A look at committed rows. The ledger is fees and rentals at one moment. -/
inductive Look where
  | item (id : ItemId)
  | items
  | rentals
  | fees
  | invoices
  | ledger
deriving DecidableEq

abbrev Look.Answer : Look → Type
  | .item _ => Option Item
  | .items => List Item
  | .rentals => List Rental
  | .fees => List Fee
  | .invoices => List Invoice
  | .ledger => List Fee × List Rental

/-- An action that is done at once. -/
inductive Action where
  /-- Asks whether a store call is made to fail at present. -/
  | fails (call : StoreCall)
  /-- Reads the clock. -/
  | now
  /-- Looks at committed rows. -/
  | look (what : Look)
  /-- Reads an item, the staged one if there is one and else the committed one. -/
  | readItem (id : ItemId)
  /-- Reads a rental in the same way. -/
  | readRental (id : RentalId)
  /-- Reads a fee in the same way. -/
  | readFee (id : FeeId)
  /-- Draws an identifier and stages a rental under it. -/
  | insertRental (rental : NewRental)
  /-- Draws an identifier and stages a fee under it. -/
  | insertFee (fee : NewFee)
  /-- Draws an identifier and stages an invoice under it. -/
  | insertInvoice (invoice : NewInvoice)
  /-- Stages an item. -/
  | updateItem (item : Item)
  /-- Stages a rental. -/
  | updateRental (rental : Rental)
  /-- Stages a fee. -/
  | updateFee (fee : Fee)
  /-- Merges the staged rows into the committed ones. -/
  | apply
  /-- Gives all locks back, forgets what is staged, and prunes the row locks. -/
  | release
  /-- Gives all locks back and forgets what is staged. -/
  | discard
  /-- Commits an item, unless there is one of its identifier. -/
  | registerItem (item : Item)
  /-- Commits an item. -/
  | placeItem (item : Item)
  /-- Announces that an item was returned. -/
  | announce (item : ItemId)
deriving DecidableEq

abbrev Action.Answer : Action → Type
  | .fails _ => Bool
  | .now => Instant
  | .look what => Except Error what.Answer
  | .readItem _ => Except Error (Option Item)
  | .readRental _ => Except Error (Option Rental)
  | .readFee _ => Except Error (Option Fee)
  | .insertRental _ => Rental
  | .insertFee _ => Fee
  | .insertInvoice _ => Invoice
  | .updateItem _ | .updateRental _ | .updateFee _ => Except Error Unit
  | .apply | .release | .discard => Unit
  | .registerItem _ => Except Error Bool
  | .placeItem _ => Unit
  | .announce _ => Unit

/-- What remains to be done until there is a result. -/
inductive Task (α : Type) where
  | done (result : α)
  | act (action : Action) (next : action.Answer → Task α)
  | acquire (key : RowKey) (next : Bool → Task α)

namespace Task

def bind {α β : Type} : Task α → (α → Task β) → Task β
  | .done a, f => f a
  | .act action next, f => .act action fun answer => (next answer).bind f
  | .acquire key next, f => .acquire key fun granted => (next granted).bind f

instance : Monad Task where
  pure := .done
  bind := Task.bind

def perform (action : Action) : Task action.Answer := .act action .done

def wait (key : RowKey) : Task Bool := .acquire key .done

end Task

/-- A task that ends with a result or with an error. -/
abbrev Operation (α : Type) := ExceptT Error Task α

namespace Operation

def perform (action : Action) : Operation action.Answer := ExceptT.lift (Task.perform action)

/-- A look at committed rows. -/
def look (what : Look) : Operation what.Answer := do ofExcept (← perform (.look what))

def acquire (key : RowKey) : Operation Unit := do
  unless ← ExceptT.lift (Task.wait key) do
    throw (.lockTimeout key)

end Operation

end RentalDesk
