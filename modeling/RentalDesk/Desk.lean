import RentalDesk.Session

/-!
# Desks

A desk is a shop with the sessions that are open at it, each under a name. Sessions take turns in
the order in which they were opened, and each turn goes as far as the session can get, until all of
them are done or wait for rows that others hold. Only then does time pass on the timer. The waits
whose deadlines have been reached then end one after another, the earliest deadline first, and those
who get on by that do so before more time passes.

No task at a desk asks for more than three rows, which bounds the number of
turns and of waits.
-/

namespace RentalDesk

/-- A shop and the sessions at it, in the order in which they were opened. -/
structure Desk (ν ρ : Type) where
  shop : Shop
  sessions : List (ν × Session ρ)

namespace Desk

variable {ν ρ : Type}

/-- A desk without sessions. -/
def ofShop (shop : Shop) : Desk ν ρ := ⟨shop, []⟩

/-- One turn for each of the sessions, and whether any of them got further. -/
def turns (shop : Shop) : List (ν × Session ρ) → Shop × List (ν × Session ρ) × Bool
  | [] => (shop, [], false)
  | (name, session) :: sessions =>
    match session.turn? shop with
    | some (shop, session) =>
      let (shop, sessions, _) := turns shop sessions
      (shop, (name, session) :: sessions, true)
    | none =>
      let (shop, sessions, moved) := turns shop sessions
      (shop, (name, session) :: sessions, moved)

/-- At most so many rounds of turns, until no session gets further. -/
def rounds : Nat → Desk ν ρ → Desk ν ρ
  | 0, d => d
  | n + 1, d =>
    let (shop, sessions, moved) := turns d.shop d.sessions
    if moved then rounds n ⟨shop, sessions⟩ else ⟨shop, sessions⟩

/-- More than the number of times that the sessions can ask for a row. -/
def patience (d : Desk ν ρ) : Nat := 4 * (d.sessions.length + 1)

/-- Lets all sessions run as far as they can. -/
def settle (d : Desk ν ρ) : Desk ν ρ := rounds d.patience d

/-- The earlier of two waits: that with the earlier deadline, or else with the older ticket. -/
def earlier (a b : Ticket × Nat) : Ticket × Nat :=
  if b.2 < a.2 ∨ (b.2 = a.2 ∧ b.1.number < a.1.number) then b else a

/-- The wait that ends first. -/
def firstWait? (d : Desk ν ρ) : Option (Ticket × Nat) :=
  match d.sessions.filterMap (·.2.wait?) with
  | [] => none
  | wait :: waits => some (waits.foldl earlier wait)

/-- The waits whose deadlines have been reached at a time, in the order in which they end. -/
def endedWaits (d : Desk ν ρ) (time : Nat) : List (Ticket × Nat) :=
  ((d.sessions.filterMap (·.2.wait?)).filter (·.2 ≤ time)).mergeSort fun a b => earlier a b = a

/-- Ends the wait of the session with the given ticket. -/
def expireTicket (ticket : Ticket) (shop : Shop) :
    List (ν × Session ρ) → Shop × List (ν × Session ρ)
  | [] => (shop, [])
  | (name, session) :: sessions =>
    if session.wait?.any (·.1 = ticket) then
      let (shop, session) := session.expire shop
      (shop, (name, session) :: sessions)
    else
      let (shop, sessions) := expireTicket ticket shop sessions
      (shop, (name, session) :: sessions)

/-- Moves the timer to a time, ends the waits that have lasted until then, and lets all sessions run
as far as they can. A wait that begins after that is measured from the new time. -/
def elapse (d : Desk ν ρ) (time : Nat) : Desk ν ρ :=
  let shop := { d.shop with timer := max d.shop.timer time }
  let (shop, sessions) := (d.endedWaits time).foldl
    (fun (shop, sessions) wait => expireTicket wait.1 shop sessions) (shop, d.sessions)
  settle ⟨shop, sessions⟩

/-- Lets so many milliseconds pass on the timer. -/
def pass (d : Desk ν ρ) (millis : Nat) : Desk ν ρ := d.elapse (d.shop.timer + millis)

variable [DecidableEq ν]

def session? (d : Desk ν ρ) (name : ν) : Option (Session ρ) :=
  (d.sessions.find? (·.1 = name)).map (·.2)

/-- The result of the session of a name, if it is done. -/
def result? (d : Desk ν ρ) (name : ν) : Option ρ := (d.session? name).bind (·.result?)

def drop (d : Desk ν ρ) (name : ν) : Desk ν ρ :=
  match d.session? name with
  | some session => ⟨session.drop d.shop, d.sessions.filter (·.1 ≠ name)⟩
  | none => d

/-- Opens a session. An open one of the same name is dropped. -/
def start (d : Desk ν ρ) (name : ν) (task : Task ρ) : Desk ν ρ :=
  let d := d.drop name
  { d with sessions := d.sessions ++ [(name, .start task)] }

def rename (d : Desk ν ρ) (name other : ν) : Desk ν ρ :=
  { d with
    sessions := d.sessions.map fun (old, session) =>
      (if old = name then other else old, session) }

def proceed (d : Desk ν ρ) (name : ν) (task : Task ρ) : Desk ν ρ :=
  { d with
    sessions := d.sessions.map fun (other, session) =>
      if other = name then (other, { session with stage := .running task })
      else (other, session) }

/-- Lets time pass, through at most so many deadlines, until the session of a name is done. -/
def await (name : ν) : Nat → Desk ν ρ → Desk ν ρ
  | 0, d => d
  | n + 1, d =>
    if (d.result? name).isSome then d
    else
      match d.firstWait? with
      | some (_, deadline) => await name n (d.elapse deadline)
      | none => d

/-- Waits for the session of a name. -/
def join (d : Desk ν ρ) (name : ν) : Desk ν ρ × Option ρ :=
  let d := await name d.patience d.settle
  (d, d.result? name)

/-- Runs a task to its end in a session of its own. -/
def run (d : Desk ν ρ) (name : ν) (task : Task ρ) : Desk ν ρ × Option ρ :=
  let (d, result) := (d.start name task).join name
  (d.drop name, result)

end Desk

end RentalDesk
