import RentalDesk.Catalog.Reader

/-!
# Seeding

Seeding registers the items of a catalog in the order of its rows. Bad rows and rows with the
identifier 0 are passed over. An item that is registered already stays as it is, so of several rows
with one identifier the first one counts. The first fault of the store ends the seeding; what was
registered before it stays registered.
-/

namespace RentalDesk.Catalog

/-- The entry that a row contributes, if it does. -/
def usable? : Except CatalogCause Entry → Option Entry
  | .ok entry => if entry.id = 0 then none else some entry
  | .error _ => none

/-- Registers items one after another, and counts the new ones on top of `added`. -/
def registerAll {σ : Type} (register : σ → Item → σ × Except Error Bool) (added : Nat) :
    σ → List Item → σ × Except Error Nat
  | state, [] => (state, .ok added)
  | state, item :: items =>
    match register state item with
    | (state, .ok isNew) => registerAll register (if isNew then added + 1 else added) state items
    | (state, .error e) => (state, .error e)

/-- Registers the items of a catalog, and counts the new ones. -/
def seed {σ : Type} (register : σ → Item → σ × Except Error Bool) (state : σ)
    (source : List UInt8) : σ × Except Error Nat :=
  registerAll register 0 state (((read source).filterMap usable?).map Entry.toItem)

end RentalDesk.Catalog
