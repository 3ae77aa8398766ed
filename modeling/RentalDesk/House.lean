import RentalDesk.Answering
import RentalDesk.Catalog.Seeding
import RentalDesk.Desk
import RentalDesk.Operations.Register
import RentalDesk.Serving
import RentalDesk.Settings

/-!
# Houses

A house is a shop that is open for requests on its terms. It is opened from its settings, from the
place where it keeps its rows, and from a catalog that it puts on the shelf. The settings are
looked at first, then the place, then the catalog.
-/

namespace RentalDesk

/-- Runs a task to its end while nobody else is at the desk. -/
def Shop.run {α : Type} (shop : Shop) (task : Task α) : Shop × Option α :=
  let (desk, result) := (Desk.ofShop shop : Desk Unit α).run () task
  (desk.shop, result)

/-- The place where a house keeps its rows. -/
inductive Place where
  | memory
  | archive (files : Archive)
  /-- A directory that cannot be opened. -/
  | obstructed

def Place.store : Place → Except Error Store
  | .memory => .ok (.memory .empty)
  | .archive files => .ok (.archive files)
  | .obstructed => .error .unopened

/-- What a store leaves behind when it is closed. -/
def Place.ofStore : Store → Place
  | .memory _ => .memory
  | .archive files => .archive files

/-- A shop that is open for requests. -/
structure House where
  terms : Terms
  shop : Shop

namespace House

def answerLine (h : House) (line : List Char) : House × Reply :=
  let (shop, reply) := h.shop.run (h.terms.answerLine line)
  ({ h with shop }, reply.getD .listFailed)

def register (h : House) (item : Item) : House × Except Error Bool :=
  let (shop, result) := h.shop.run (h.terms.register item).run
  ({ h with shop }, result.getD (.ok false))

def serve (h : House) (stream : Bytes) : House × Served := RentalDesk.serve answerLine h stream

def setClock (h : House) (clock : Instant) : House := { h with shop := { h.shop with clock } }

/-- Opens a house. The catalog is a file, or the cause why there is none. -/
def opened (settings : Settings) (place : Place) (catalog : Option (Except StreamCause Bytes))
    (clock : Instant) : Except Error (House × Nat) := do
  let tariff ← settings.tariff
  let store ← place.store
  let sequences ← store.sequences
  let h : House :=
    ⟨⟨tariff, store.medium⟩, .opened store sequences settings.lockWaitMillis.toNat clock⟩
  match catalog with
  | none => return (h, 0)
  | some (.error cause) => throw (.stream cause)
  | some (.ok source) =>
    let (h, added) := Catalog.seed register h source
    return (h, ← added)

/-- Serves each of the streams from a house that is opened anew at the same place. -/
def serveEach (settings : Settings) (catalog : Option (Except StreamCause Bytes))
    (clock : Instant) : Place → List Bytes → Except Error (List String)
  | _, [] => return []
  | place, stream :: streams => do
    let (h, _) ← opened settings place catalog clock
    let (h, served) := h.serve stream
    if let some cause := served.fault then throw (.stream cause)
    return served.output :: (← serveEach settings catalog clock (.ofStore h.shop.store) streams)

end House

end RentalDesk
