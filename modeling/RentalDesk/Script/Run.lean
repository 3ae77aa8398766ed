import RentalDesk.Catalog.Seeding
import RentalDesk.Desk
import RentalDesk.Script.Step

/-!
# Running a script

The sessions of a script are its own steps, its transactions and its jobs. After every step all
jobs run as far as they can. A step that has to wait for a row lets time pass on the timer until it
can finish. A job goes on without its name when another one gets it.
-/

namespace RentalDesk.Script

/-- Whose session it is. -/
inductive Party where
  | counter
  | transaction (name : String)
  | job (name : String)
  /-- A job whose name was given to another one. -/
  | nameless
deriving DecidableEq

/-- Whether connections can be made. -/
inductive Network where
  | reachable
  | unreachable
deriving DecidableEq

/-- A desk that a script is run at, and what is fixed while it runs. -/
structure Bench where
  terms : Terms
  network : Network
  desk : Desk Party Answer

/-- What a bench is set up with. The items are on the shelf at the start. -/
structure Setup where
  items : List (ItemId × String)
  tariff : Tariff
  clock : Instant
  lockWait : Nat
  medium : Medium
  network : Network

/-- The answer of a step that has nothing to say. -/
def Answer.nothing : Answer := .finished (.ok ())

namespace Bench

def setShop (b : Bench) (shop : Shop) : Bench := { b with desk := { b.desk with shop } }

def run (b : Bench) (task : Task Answer) : Bench × Option Answer :=
  let (desk, answer) := b.desk.run .counter task
  ({ b with desk }, answer)

/-- Answers a request line as a step. -/
def answerLine (b : Bench) (line : List Char) : Bench × Reply :=
  match b.run do return .reply (← b.terms.answerLine line) with
  | (b, some (.reply reply)) => (b, reply)
  | (b, _) => (b, .listFailed)

def register (b : Bench) (item : Item) : Bench × Except Error Bool :=
  match b.run do return .flag (← (b.terms.register item).run) with
  | (b, some (.flag result)) => (b, result)
  | (b, _) => (b, .ok false)

/-- Serves connections one after another. A fault ends its own connection only. -/
def serveAll : Bench → List Bytes → Bench × List String
  | b, [] => (b, [])
  | b, stream :: streams =>
    let (b, served) := serve answerLine b stream
    let (b, outputs) := serveAll b streams
    (b, served.output :: outputs)

def setClock (b : Bench) (time : Option Instant) : Bench × Option Answer :=
  match time with
  | some clock => (b.setShop { b.desk.shop with clock }, some (.clock time))
  | none => (b, some (.clock none))

/-- Closes the store and opens it again: all sessions are dropped, nothing is locked, and nobody
listens to earlier returns. -/
def reopen (b : Bench) (store : Store) (sequences : Sequences) : Bench :=
  { b with
    desk := .ofShop
      { b.desk.shop with store, sequences, locks := .empty, returns := .empty } }

def edit (files : Archive) (e : Edit) : Archive :=
  match e.value with
  | some value => files.put e.table e.key value
  | none => files.delete e.table e.key

/-- Opens an archive, or else the same archive without the keys that were edited. -/
def openEdited (b : Bench) (files : Archive) (edits : List Edit) : Bench × Option Answer :=
  match files.sequences with
  | .ok sequences => (b.reopen (.archive files) sequences, some .nothing)
  | .error e =>
    let files := edits.foldl (fun files edit => files.delete edit.table edit.key) files
    match files.sequences with
    | .ok sequences => (b.reopen (.archive files) sequences, some (.finished (.error e)))
    | .error _ => (b, none)

/-- Makes a call of a transaction. There is no answer if there is no such transaction. -/
def move (b : Bench) (name : String) (move : Move) : Bench × Option Answer :=
  match b.desk.session? (.transaction name) with
  | none => (b, none)
  | some _ =>
    let (desk, answer) := (b.desk.proceed (.transaction name) move.task).join (.transaction name)
    ({ b with desk := if move.isLast then desk.drop (.transaction name) else desk }, answer)

/-- Waits for a job. There is no answer if there is no such job. -/
def join (b : Bench) (name : String) : Bench × Option Answer :=
  let (desk, answer) := b.desk.join (.job name)
  ({ b with desk := desk.drop (.job name) }, answer.map .joined)

def takeReturns (b : Bench) : Bench × Option Answer :=
  (b.setShop { b.desk.shop with returns := .empty }, some (.events b.desk.shop.returns))

def rowsOf (files : Archive) : List (TableName × List (Bytes × Bytes)) :=
  TableName.all.map fun name => (name, (files.table name).rows)

/-- Makes one step. There is no answer if the step does not fit the bench. -/
def act (b : Bench) : Step → Bench × Option Answer
  | .call call => b.run (call.task b.terms)
  | .query query => b.run (query.task b.terms)
  | .register item =>
    let (b, result) := b.register item
    (b, some (.flag result))
  | .seed source =>
    let (b, result) := Catalog.seed register b source
    (b, some (.count result))
  | .advance nanos => b.setClock (b.desk.shop.clock.shift? nanos)
  | .setClock nanos => b.setClock (Instant.ofNanos? nanos)
  | .fail calls => (b.setShop { b.desk.shop with failing := calls }, some .nothing)
  | .returned item => b.run do
    Task.perform (.announce item)
    return .nothing
  | .events => b.takeReturns
  | .serve stream false =>
    let (b, served) := serve answerLine b stream
    (b, some (.served served))
  | .serve stream true =>
    let (b, served) := serveClosed answerLine b stream
    (b, some (.finished (served.fault.elim (.ok ()) fun cause => .error (.stream cause))))
  | .connections streams =>
    match b.network, streams with
    | .unreachable, _ :: _ => (b, some (.outputs (.error (.stream .unreachable))))
    | _, streams =>
      let (b, outputs) := b.serveAll streams
      (b, some (.outputs (.ok outputs)))
  | .snapshot renters => (b, some (.snapshot (.ofStore b.desk.shop.store renters)))
  | .begin name =>
    ({ b with desk := b.desk.start (.transaction name) (.done .nothing) }, some .nothing)
  | .move name move => b.move name move
  | .spawn name call =>
    let desk := b.desk.rename (.job name) .nameless
    ({ b with desk := desk.start (.job name) (call.task b.terms) }, some .nothing)
  | .isDone name =>
    (b, (b.desk.session? (.job name)).map fun session => .flag (.ok session.result?.isSome))
  | .join name => b.join name
  | .cancel name => ({ b with desk := b.desk.drop (.job name) }, some .nothing)
  | .pass millis => ({ b with desk := b.desk.pass millis }, some .nothing)
  | .reopen =>
    match b.desk.shop.store.sequences with
    | .ok sequences => (b.reopen b.desk.shop.store sequences, some .nothing)
    | .error e => (b, some (.finished (.error e)))
  | .rows =>
    match b.desk.shop.store with
    | .memory _ => (b, none)
    | .archive files =>
      match files.sequences with
      | .ok sequences => (b.reopen (.archive files) sequences, some (.rows (rowsOf files)))
      | .error e => (b, some (.finished (.error e)))
  | .edit edits =>
    match b.desk.shop.store with
    | .memory _ => (b, none)
    | .archive files => b.openEdited (edits.foldl edit files) edits
  | .openAgain => (b, some (.finished (.error .unopened)))

/-- Makes one step and lets the jobs run as far as they can. -/
def step (b : Bench) (s : Step) : Bench × Option Answer :=
  let (b, answer) := b.act s
  ({ b with desk := b.desk.settle }, answer)

/-- Makes the steps of a script. -/
def steps : Bench → List Step → Bench × List (Option Answer)
  | b, [] => (b, [])
  | b, s :: rest =>
    let (b, answer) := b.step s
    let (b, answers) := steps b rest
    (b, answer :: answers)

end Bench

def Setup.bench (s : Setup) : Bench :=
  let shop := Shop.opened (.empty s.medium) .fresh s.lockWait s.clock
  let b : Bench := ⟨⟨s.tariff, s.medium⟩, s.network, .ofShop shop⟩
  s.items.foldl (fun b item => (b.register (Item.new item.1 item.2)).1) b

/-- Runs a script: the answers to its steps, and what the store holds in the end. -/
def run (setup : Setup) (script : List Step) (renters : List RenterId) :
    List (Option Answer) × Snapshot :=
  let (b, answers) := setup.bench.steps script
  (answers, .ofStore b.desk.shop.store renters)

end RentalDesk.Script
