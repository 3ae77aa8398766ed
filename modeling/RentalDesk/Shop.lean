import RentalDesk.Task

/-!
# Shops

A shop is all that the tasks at a desk share: the committed rows, the sequences of identifiers, the
row locks, the clock, and the channel on which returns are announced. Lock waits are measured with
a timer of their own. The meaning of an action is the change that it makes to the shop and to the
write set of its transaction, and its answer.
-/

namespace RentalDesk

/-- The announced returns that have not been taken yet, oldest first. The channel keeps so many of
them and counts those that it had to let go. -/
structure Returns where
  kept : List ItemId
  lost : Nat
deriving DecidableEq

namespace Returns

/-- How many returns a channel keeps. -/
abbrev capacity : Nat := 64

/-- The channel without returns. -/
def empty : Returns := ⟨[], 0⟩

def announce (r : Returns) (item : ItemId) : Returns :=
  if r.kept.length < capacity then { r with kept := r.kept ++ [item] }
  else ⟨r.kept.tail ++ [item], r.lost + 1⟩

end Returns

/-- What the tasks at a desk share. -/
structure Shop where
  store : Store
  sequences : Sequences
  locks : RowLocks
  /-- How many milliseconds a task waits for a row. -/
  lockWait : Nat
  /-- The milliseconds on the timer. -/
  timer : Nat
  clock : Instant
  /-- The store calls that are made to fail. -/
  failing : List StoreCall
  returns : Returns

namespace Shop

/-- The shop of a store that is opened. Nobody is at work in it yet. -/
def opened (store : Store) (sequences : Sequences) (lockWait : Nat) (clock : Instant) :
    Shop where
  store := store
  sequences := sequences
  locks := .empty
  lockWait := lockWait
  timer := 0
  clock := clock
  failing := []
  returns := .empty

def look (shop : Shop) : (what : Look) → Except Error what.Answer
  | .item id => shop.store.item? id
  | .items => shop.store.items
  | .rentals => shop.store.rentals
  | .fees => shop.store.fees
  | .invoices => shop.store.invoices
  | .ledger => do
    let fees ← shop.store.fees
    let rentals ← shop.store.rentals
    return (fees, rentals)

def overlay {α : Type} (staged : Option α) (committed : Except Error (Option α)) :
    Except Error (Option α) :=
  match staged with
  | some row => .ok (some row)
  | none => committed

/-- The shop after all locks of a write set were given back. -/
def giveBack (shop : Shop) (writes : WriteSet) : Shop :=
  { shop with locks := shop.locks.giveBackAll writes.held }

/-- The write set that staging leaves behind, the old one if the row was refused. -/
def staged (shop : Shop) (writes : WriteSet) :
    Except Error WriteSet → Except Error Unit × Shop × WriteSet
  | .ok writes => (.ok (), shop, writes)
  | .error e => (.error e, shop, writes)

/-- Does an action for the transaction with the given write set. -/
def perform (shop : Shop) (writes : WriteSet) : (action : Action) →
    action.Answer × Shop × WriteSet
  | .fails call => (shop.failing.contains call, shop, writes)
  | .now => (shop.clock, shop, writes)
  | .look what => (shop.look what, shop, writes)
  | .readItem id => (overlay (writes.staged.items.get? id) (shop.store.item? id), shop, writes)
  | .readRental id =>
    (overlay (writes.staged.rentals.get? id) (shop.store.rental? id), shop, writes)
  | .readFee id => (overlay (writes.staged.fees.get? id) (shop.store.fee? id), shop, writes)
  | .insertRental rental =>
    let (id, rentals) := shop.sequences.rentals.draw
    let rental := rental.withId id
    (rental, { shop with sequences := { shop.sequences with rentals } },
      writes.insertRental rental)
  | .insertFee fee =>
    let (id, fees) := shop.sequences.fees.draw
    let fee := fee.withId id
    (fee, { shop with sequences := { shop.sequences with fees } }, writes.insertFee fee)
  | .insertInvoice invoice =>
    let (id, invoices) := shop.sequences.invoices.draw
    let invoice := invoice.withId id
    (invoice, { shop with sequences := { shop.sequences with invoices } },
      writes.insertInvoice invoice)
  | .updateItem item => shop.staged writes (writes.stageItem item)
  | .updateRental rental => shop.staged writes (writes.stageRental rental)
  | .updateFee fee =>
    shop.staged writes ((shop.store.fee? fee.id).bind (writes.stageFee fee))
  | .apply => ((), { shop with store := shop.store.apply writes.staged }, writes)
  | .release =>
    let shop := shop.giveBack writes
    ((), { shop with locks := shop.locks.prune }, .empty)
  | .discard => ((), shop.giveBack writes, .empty)
  | .registerItem item =>
    match shop.store.item? item.id with
    | .ok none => (.ok true, { shop with store := shop.store.putItem item }, writes)
    | .ok (some _) => (.ok false, shop, writes)
    | .error e => (.error e, shop, writes)
  | .placeItem item => ((), { shop with store := shop.store.putItem item }, writes)
  | .announce item => ((), { shop with returns := shop.returns.announce item }, writes)

end Shop

end RentalDesk
