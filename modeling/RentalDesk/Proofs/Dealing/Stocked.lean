import RentalDesk.Proofs.Availability
import RentalDesk.Proofs.Dealing.Reached

/-!
# What becomes of the shelf

An item can be registered as one that is out, and then no rental says why. If nothing but available
items was ever registered, the items that are out are those with an open rental, on either medium,
whatever the services were and however often the desk was opened again.
-/

namespace RentalDesk

open Script

/-! ## What is put on the shelf -/

/-- If an item is registered by it, the item is available. -/
def Action.stocks : Action → Bool
  | .registerItem item | .placeItem item => item.available
  | _ => true

/-- Nothing but available items is registered. -/
def Event.Stocks {ν ρ : Type} : Event ν ρ → Prop
  | .does _ (.did action _) => action.stocks = true
  | _ => True

instance {ν ρ : Type} : (e : Event ν ρ) → Decidable e.Stocks
  | .does _ (.did action _) => inferInstanceAs (Decidable (action.stocks = true))
  | .does _ (.passed _) | .does _ (.asked _) | .does _ (.took _) | .does _ (.gaveUp _)
  | .comes _ _ | .leaves _ | .turns _ => isTrue trivial

/-- The floor of a desk that was opened without rows and that nothing but available items was
registered at. -/
def Floor.Stocked {ν : Type} [DecidableEq ν] (accepts : Tariff → Prop) (terms : Terms)
    (drawn : Series → Nat) (f : Floor ν Answer) : Prop :=
  ∃ (first : Terms) (lockWait : Nat) (clock : Instant), accepts first.tariff ∧
    (ofShop (.opened (.empty first.medium) .fresh lockWait clock)).ComesTo accepts Event.Stocks
      first (fun _ => 0) terms drawn f

namespace Tables.ShelfAgrees

variable {t t' : Tables}

/-- The shelf agrees or not by what is found under the identifiers. -/
theorem congr (h : t.ShelfAgrees) (items : ∀ id, t'.items.get? id = t.items.get? id)
    (rentals : ∀ key, t'.rentals.get? key = t.rentals.get? key) : t'.ShelfAgrees where
  out_iff := by simpa only [Out, Open, items, rentals] using h.out_iff
  one := by simpa only [Open, rentals] using h.one
  registered := by simpa only [items, rentals] using h.registered

theorem congr_keptIn {medium medium' : Medium} (h : t.ShelfAgrees)
    (same : t.keptIn medium = t'.keptIn medium') : t'.ShelfAgrees := by
  refine h.congr (fun id => ?_) fun key => ?_
  · have row := congrArg (Store.item? · id) same
    simpa using row.symm
  · have row := congrArg (Store.rental? · key) same
    simpa using row.symm

end Tables.ShelfAgrees

namespace Watch

variable {terms : Terms} {t : Tables} {last : Series → Nat} {w : Watch} {command : Command}
  {reply : Reply}

/-- To commit what is prepared keeps the shelf and the open rentals in agreement. -/
theorem Prepared.shelfAgrees (h : w.Prepared terms command reply)
    (fits : Policy.history.Fits terms.medium t last w.custody) (working : w.custody.ended = false)
    (agrees : t.ShelfAgrees) : (t.merge w.custody.writes.staged).ShelfAgrees := by
  cases h with
  | @lent c _ renter item _ _ _ found available rentalDrawn _ staged =>
      have stored := Tables.row?_item.1 (found.found fits)
      have new := Tables.get?_of_unused_rental (fits.fresh working _ _ rfl rentalDrawn)
      have lent : (t.lend item (c.rental renter item.id) c.fee).ShelfAgrees :=
        agrees.lend stored available new rfl rfl
      rwa [staged]
  | returned _ _ _ _ _ lent _ still found home _ _ staged =>
      have hopen := Option.isNone_iff_eq_none.1 still
      rw [staged]
      exact (agrees.close ⟨Tables.row?_rental.1 (lent.found fits), hopen⟩ home).settle _ _
  | paid _ _ _ _ _ _ _ _ _ staged =>
      rw [staged]
      exact agrees.settle _ _

end Watch

namespace Floor

section

variable {ν : Type} [DecidableEq ν] {accepts : Tariff → Prop} {terms : Terms}
  {drawn : Series → Nat} {f g : Floor ν Answer} {e : Event ν Answer}

/-- Every event that puts nothing but available items on the shelf keeps it in agreement. -/
theorem Dealt.shelfAgrees {r : Regard ν terms} {t : Tables} {last : Series → Nat}
    {times : List Instant} (h : f.Dealt r t last times) (step : f.Step e g) (stocks : e.Stocks)
    (agrees : t.ShelfAgrees) : (f.performed t e).ShelfAgrees := by
  cases step with
  | @does v s s' deed shop present step =>
      cases step with
      | @act writes action next =>
          obtain ⟨w, ⟨rfl, fits, permits, -⟩, -⟩ := h.sessions v _ present
          rw [performed, present, Option.elim_some]
          cases action
          case apply =>
              obtain ⟨_, _, prepared⟩ := permits.2 rfl
              exact prepared.shelfAgrees fits permits.1.1 agrees
          case placeItem item =>
              have new := (fits.known _ _ (permits.1.2.2 rfl)).2.2.1
              exact agrees.putItem (by simpa [Tables.row?] using new) stocks
          case registerItem item =>
              rw [Tables.performed]
              split
              · exact agrees
              · next new => exact agrees.putItem (Option.not_isSome_iff_eq_none.1 new) stocks
          all_goals exact agrees
      | _ => exact agrees
  | _ => exact agrees

/-- Where nothing but available items was registered, the shelf and the open rentals agree. -/
theorem Stocked.shelfAgrees (h : f.Stocked accepts terms drawn) {t : Tables} {medium : Medium}
    (store : f.shop.store = t.keptIn medium) : t.ShelfAgrees := by
  obtain ⟨first, lockWait, clock, accepted, comes⟩ := h
  have opened : (ofShop (.opened (.empty first.medium) .fresh lockWait clock)).Reached (ν := ν)
      accepts first fun _ => 0 := .opened accepted lockWait clock
  induction comes generalizing t medium with
  | stays => exact .congr_keptIn .empty ((Tables.keptIn_empty first.medium).trans store)
  | step comes step served stocks few ih =>
      obtain ⟨t', last, times, -, dealt⟩ :=
        (comes.reached opened).dealt (P := fun _ => True) trivial fun _ _ _ => trivial
      have after := dealt.shelfAgrees step stocks (ih dealt.kept.store)
      exact after.congr_keptIn ((step.store dealt.kept.store).symm.trans store)
  | reopened _ store' _ _ _ _ _ ih => exact ih (store'.trans store)

end

end Floor

end RentalDesk
