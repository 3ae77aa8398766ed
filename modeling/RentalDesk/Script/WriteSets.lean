import RentalDesk.WriteSet

/-!
# Working on write sets

Write sets under names, and locks that are held without one, share the row locks of one desk. A
write set is made when its name is first used. Nothing else runs meanwhile, so whoever asks for a
row that is held elsewhere waits in vain.
-/

namespace RentalDesk.Script

/-- Write sets and single locks under names. -/
structure Workbench where
  locks : RowLocks
  sets : List (String × WriteSet)
  guards : List (String × Ticket)

/-- What is done with a write set. -/
inductive SetAction where
  | lock (key : RowKey)
  | holds (key : RowKey)
  | stageItem (item : Item)
  | stageRental (rental : Rental)
  | stageFee (fee : Fee) (committed : Option Fee)
  | insertRental (rental : Rental)
  | insertFee (fee : Fee)
  | insertInvoice (invoice : Invoice)
  | staged
  /-- Compares two rows, for which the write set is not looked at. -/
  | order (a b : RowKey)
  | release
  | drop

/-- A step on a workbench. -/
inductive SetStep where
  | within (name : String) (action : SetAction)
  | acquire (key : RowKey) (guard : String)
  | letGo (guard : String)
  | prune

/-- The answer to such a step. -/
inductive SetAnswer where
  | finished (result : Except Error Unit)
  | flag (value : Bool)
  | staged (rows : Tables)
  | order (value : Ordering)
  | acquired (result : Except Error RowKey)

namespace Workbench

/-- A workbench on which nothing has been done. -/
def empty : Workbench := ⟨.empty, [], []⟩

def set (b : Workbench) (name : String) : WriteSet :=
  ((b.sets.find? (·.1 = name)).map (·.2)).getD .empty

def putSet (b : Workbench) (name : String) (writes : WriteSet) : Workbench :=
  { b with sets := (name, writes) :: b.sets.filter (·.1 ≠ name) }

/-- The workbench after the write set of a name has given its locks back. -/
def dropSet (b : Workbench) (name : String) : Workbench :=
  { b with
    locks := b.locks.giveBackAll (b.set name).held
    sets := b.sets.filter (·.1 ≠ name) }

/-- Asks for a row and gives the ticket back if the row is not free. -/
def acquire (b : Workbench) (key : RowKey) : Workbench × Except Error Ticket :=
  let (ticket, locks) := b.locks.request key
  match locks.grant? ticket with
  | some locks => ({ b with locks }, .ok ticket)
  | none => ({ b with locks := locks.giveBack ticket }, .error (.lockTimeout key))

def letGo (b : Workbench) (guard : String) : Workbench × Bool :=
  match b.guards.find? (·.1 = guard) with
  | some (_, ticket) =>
    ({ b with
        locks := b.locks.giveBack ticket
        guards := b.guards.filter (·.1 ≠ guard) }, true)
  | none => (b, false)

/-- The workbench after rows were staged, unchanged if they were refused. -/
def stage (b : Workbench) (name : String) : Except Error WriteSet → Workbench × SetAnswer
  | .ok writes => (b.putSet name writes, .finished (.ok ()))
  | .error e => (b, .finished (.error e))

def within (b : Workbench) (name : String) (action : SetAction) : Workbench × SetAnswer :=
  let writes := b.set name
  let b := b.putSet name writes
  match action with
  | .lock key =>
    if writes.holds key then (b, .finished (.ok ()))
    else
      match b.acquire key with
      | (b, .ok ticket) => (b.putSet name (writes.hold ticket), .finished (.ok ()))
      | (b, .error e) => (b, .finished (.error e))
  | .holds key => (b, .flag (writes.holds key))
  | .stageItem item => b.stage name (writes.stageItem item)
  | .stageRental rental => b.stage name (writes.stageRental rental)
  | .stageFee fee committed => b.stage name (writes.stageFee fee committed)
  | .insertRental rental => b.stage name (.ok (writes.insertRental rental))
  | .insertFee fee => b.stage name (.ok (writes.insertFee fee))
  | .insertInvoice invoice => b.stage name (.ok (writes.insertInvoice invoice))
  | .staged => (b, .staged writes.staged)
  | .order x y => (b, .order (compare x y))
  | .release =>
    let b := b.dropSet name
    ({ b with locks := b.locks.prune }, .finished (.ok ()))
  | .drop => (b.dropSet name, .finished (.ok ()))

/-- Makes one step. The lock that a guard held before goes back after the new one was obtained. -/
def step (b : Workbench) : SetStep → Workbench × SetAnswer
  | .within name action => b.within name action
  | .acquire key guard =>
    match b.acquire key with
    | (b, .ok ticket) =>
      let b := (b.letGo guard).1
      ({ b with guards := (guard, ticket) :: b.guards }, .acquired (.ok key))
    | (b, .error e) => (b, .acquired (.error e))
  | .letGo guard =>
    let (b, had) := b.letGo guard
    (b, .flag had)
  | .prune => ({ b with locks := b.locks.prune }, .finished (.ok ()))

/-- Makes steps one after another. -/
def steps : Workbench → List SetStep → Workbench × List SetAnswer
  | b, [] => (b, [])
  | b, s :: rest =>
    let (b, answer) := b.step s
    let (b, answers) := steps b rest
    (b, answer :: answers)

end Workbench

end RentalDesk.Script
