import RentalDesk.Shop

/-!
# Sessions

A session is a task on its way, with the write set of its transaction. It is running, or it waits
with a ticket for a row until a deadline on the timer. A session that is dropped gives its locks
and its ticket back, and nothing that it has staged remains.
-/

namespace RentalDesk

/-- Where a session stands. -/
inductive Stage (ρ : Type) where
  | running (task : Task ρ)
  | waiting (ticket : Ticket) (deadline : Nat) (next : Bool → Task ρ)

/-- A task on its way. -/
structure Session (ρ : Type) where
  writes : WriteSet
  stage : Stage ρ

namespace Session

variable {ρ : Type}

/-- A session that has done nothing yet. -/
def start (task : Task ρ) : Session ρ := ⟨.empty, .running task⟩

def result? (s : Session ρ) : Option ρ :=
  match s.stage with
  | .running (.done result) => some result
  | _ => none

def wait? (s : Session ρ) : Option (Ticket × Nat) :=
  match s.stage with
  | .waiting ticket deadline _ => some (ticket, deadline)
  | _ => none

/-- Runs a task until it is done or has to wait. A row that the transaction can write already is
not asked for again, and one that is free is granted at once. Where no time is granted for waiting,
a row that is not free is refused at once. -/
def advance (shop : Shop) (writes : WriteSet) : Task ρ → Shop × Session ρ
  | .done result => (shop, ⟨writes, .running (.done result)⟩)
  | .act action next =>
    let (answer, shop, writes) := shop.perform writes action
    advance shop writes (next answer)
  | .acquire key next =>
    if writes.holds key then advance shop writes (next true)
    else
      let (ticket, locks) := shop.locks.request key
      match locks.grant? ticket with
      | some locks => advance { shop with locks } (writes.hold ticket) (next true)
      | none =>
        if shop.lockWait = 0 then
          advance { shop with locks := locks.giveBack ticket } writes (next false)
        else ({ shop with locks }, ⟨writes, .waiting ticket (shop.timer + shop.lockWait) next⟩)

/-- Runs a session as far as it can, unless it is done or waits for a row that is not free. -/
def turn? (shop : Shop) (s : Session ρ) : Option (Shop × Session ρ) :=
  match s.stage with
  | .running (.done _) => none
  | .running task => some (advance shop s.writes task)
  | .waiting ticket _ next =>
    (shop.locks.grant? ticket).map fun locks =>
      advance { shop with locks } (s.writes.hold ticket) (next true)

/-- Ends the wait of a session: with the row if it is free by now, and otherwise without it. -/
def expire (shop : Shop) (s : Session ρ) : Shop × Session ρ :=
  match s.turn? shop, s.stage with
  | some granted, _ => granted
  | none, .waiting ticket _ next =>
    advance { shop with locks := shop.locks.giveBack ticket } s.writes (next false)
  | none, .running _ => (shop, s)

def drop (shop : Shop) (s : Session ρ) : Shop :=
  let shop := shop.giveBack s.writes
  match s.wait? with
  | some (ticket, _) => { shop with locks := shop.locks.giveBack ticket }
  | none => shop

end Session

end RentalDesk
