import RentalDesk.Proofs.Interchange.Shops
import RentalDesk.Session

/-!
# Readings and registrations

A snapshot is read, and an item is registered, in one go. What is shown or done depends on the
tables alone: `Reading.shows` is what a reading shows of tables, and `Tables.register` is what
registering an item makes of them. Memory and an archive get there by different steps. Memory joins
fees and rentals in one look and registers in one action; an archive looks twice, and registers
under the lock of the item.
-/

namespace RentalDesk

open Operation

/-- A snapshot that can be read of a store. -/
inductive Reading where
  | item (id : ItemId)
  | items
  | feesOfRenter (renter : RenterId)
  | rentalsOfRenter (renter : RenterId)
  | invoicesOfRenter (renter : RenterId)
deriving DecidableEq

def Reading.task (terms : Terms) : Reading → Task Script.Answer
  | .item id => return .item (← (checked .item (Operation.look (.item id))).run)
  | .items => return .items (← allItems.run)
  | .feesOfRenter renter => return .fees (← (terms.feesOfRenter renter).run)
  | .rentalsOfRenter renter => return .rentals (← (Operation.rentalsOfRenter renter).run)
  | .invoicesOfRenter renter => return .invoices (← (Operation.invoicesOfRenter renter).run)

/-- What a reading shows of tables. -/
def Reading.shows (t : Tables) : Reading → Script.Answer
  | .item id => .item (.ok (t.items.get? id))
  | .items => .items (.ok t.items.values)
  | .feesOfRenter renter => .fees (.ok (feesOf (rentalsOf renter t.rentals.values) t.fees.values))
  | .rentalsOfRenter renter => .rentals (.ok (rentalsOf renter t.rentals.values))
  | .invoicesOfRenter renter => .invoices (.ok (invoicesOf renter t.invoices.values))

/-- The tables after an item was registered, and whether it is new. -/
def Tables.register (t : Tables) (item : Item) : Tables × Bool :=
  match t.items.get? item.id with
  | none => (t.putItem item, true)
  | some _ => (t, false)

/-! ## In one go -/

namespace Session

variable {α ρ : Type} {shop : Shop} {writes : WriteSet} {k : Except Error α → Task ρ}

theorem advance_act {action : Action} {next : action.Answer → Task ρ} :
    advance shop writes (.act action next) = advance (shop.perform writes action).2.1
      (shop.perform writes action).2.2 (next (shop.perform writes action).1) := rfl

/-- A checked call that is not made to fail does what it is there for. -/
theorem advance_checked_of_works {call : StoreCall} (works : call ∉ shop.failing)
    (x : Operation α) :
    advance shop writes ((checked call x).run >>= k) = advance shop writes (x.run >>= k) := by
  have hperform : shop.perform writes (.fails call) = (false, shop, writes) := by
    rw [Shop.perform, Bool.eq_false_iff.2 (mt List.contains_iff_mem.1 works)]
  change advance shop writes (.act (.fails call) _) = _
  rw [advance_act, hperform]
  rfl

theorem advance_checked (calm : shop.failing = []) (call : StoreCall) (x : Operation α) :
    advance shop writes ((checked call x).run >>= k) = advance shop writes (x.run >>= k) :=
  advance_checked_of_works (calm ▸ List.not_mem_nil) x

section

variable {what : Look} {answer : what.Answer} (h : shop.look what = .ok answer)

include h

theorem advance_act_look {next : Except Error what.Answer → Task ρ} :
    advance shop writes (.act (.look what) next) = advance shop writes (next (.ok answer)) := by
  rw [advance_act, Shop.perform, h]

theorem advance_look {k : Except Error what.Answer → Task ρ} :
    advance shop writes ((Operation.look what).run >>= k) =
      advance shop writes (k (.ok answer)) :=
  advance_act_look h

theorem advance_look_bind (f : what.Answer → Operation α) :
    advance shop writes ((Operation.look what >>= f).run >>= k) =
      advance shop writes ((f answer).run >>= k) :=
  advance_act_look h

end

end Session

/-! ## Readings -/

theorem feesOf_plain (rentals : List Rental) (fees : List Fee) :
    feesOf rentals (fees.map Fee.plain) = (feesOf rentals fees).map plainPair := by
  rw [feesOf, feesOf, List.filterMap_map, List.map_filterMap]
  congr 1
  funext fee
  simp only [Function.comp_apply, Fee.plain, Option.map_map]
  rfl

theorem invoicesOf_plain (renter : RenterId) (invoices : List Invoice) :
    invoicesOf renter (invoices.map Invoice.plain) =
      (invoicesOf renter invoices).map Invoice.plain := by
  rw [invoicesOf, invoicesOf, List.filter_map]
  rfl

namespace Reading

variable {shop : Shop} {t : Tables} (reading : Reading) (tariff : Tariff)

/-- Memory shows what the tables show. -/
theorem advance_memory (store : shop.store = .memory t) (calm : shop.failing = []) :
    Session.advance shop .empty (reading.task ⟨tariff, .memory⟩) =
      (shop, ⟨.empty, .running (.done (reading.shows t))⟩) := by
  have looks := Shop.look_memory store
  cases reading with
  | item id =>
      exact (Session.advance_checked calm _ _).trans (Session.advance_look (looks (.item id)))
  | items => exact (Session.advance_checked calm _ _).trans (Session.advance_look (looks .items))
  | feesOfRenter renter =>
      exact (Session.advance_checked calm _ _).trans (Session.advance_look_bind (looks .ledger) _)
  | rentalsOfRenter renter =>
      exact (Session.advance_checked calm _ _).trans (Session.advance_look_bind (looks .rentals) _)
  | invoicesOfRenter renter =>
      exact (Session.advance_checked calm _ _).trans (Session.advance_look_bind (looks .invoices) _)

/-- An archive shows the same, up to the sign of zeros. -/
theorem advance_archive (store : shop.store = .archive (.ofTables t)) (calm : shop.failing = []) :
    Session.advance shop .empty (reading.task ⟨tariff, .archive⟩) =
      (shop, ⟨.empty, .running (.done (reading.shows t).plain)⟩) := by
  have looks := Shop.look_archive store
  cases reading with
  | item id =>
      exact (Session.advance_checked calm _ _).trans (Session.advance_look (looks (.item id)))
  | items => exact (Session.advance_checked calm _ _).trans (Session.advance_look (looks .items))
  | feesOfRenter renter =>
      refine (Session.advance_checked calm _ _).trans
        ((Session.advance_look_bind (looks .rentals) _).trans
          ((Session.advance_look_bind (looks .fees) _).trans ?_))
      simp only [Tables.look, Look.plain, id, feesOf_plain]
      rfl
  | rentalsOfRenter renter =>
      exact (Session.advance_checked calm _ _).trans (Session.advance_look_bind (looks .rentals) _)
  | invoicesOfRenter renter =>
      refine (Session.advance_checked calm _ _).trans
        ((Session.advance_look_bind (looks .invoices) _).trans ?_)
      simp only [Tables.look, Look.plain, invoicesOf_plain]
      rfl

end Reading

/-! ## Registrations -/

/-- Registers an item and answers whether it is new. -/
def registration (terms : Terms) (item : Item) : Task Script.Answer := do
  return .flag (← (terms.register item).run)

section

variable {shop : Shop} {t : Tables} {ρ : Type} (tariff : Tariff) (item : Item)

theorem advance_register_memory (store : shop.store = .memory t)
    (works : .registerItem ∉ shop.failing) (k : Except Error Bool → Task ρ) :
    Session.advance shop .empty ((Terms.register ⟨tariff, .memory⟩ item).run >>= k) =
      Session.advance { shop with store := .memory (t.register item).1 } .empty
        (k (.ok (t.register item).2)) := by
  refine (Session.advance_checked_of_works works _).trans ?_
  change Session.advance shop .empty (.act (.registerItem item) _) = _
  rw [Session.advance_act, Tables.register]
  cases hitem : t.items.get? item.id with
  | none =>
      rw [Shop.perform_registerItem_new store hitem]
      rfl
  | some row =>
      rw [Shop.perform_registerItem_known store hitem]
      simp only [← store]
      rfl

/-- An archive locks the item meanwhile, and gives the lock back. -/
theorem advance_register_archive (store : shop.store = .archive (.ofTables t))
    (works : .registerItem ∉ shop.failing) {locks : RowLocks}
    (granted : (shop.locks.request (.item item.id)).2.grant?
      (shop.locks.request (.item item.id)).1 = some locks) (k : Except Error Bool → Task ρ) :
    Session.advance shop .empty ((Terms.register ⟨tariff, .archive⟩ item).run >>= k) =
      Session.advance { shop with
          store := .archive (.ofTables (t.register item).1)
          locks := locks.giveBack (shop.locks.request (.item item.id)).1 } .empty
        (k (.ok (t.register item).2)) := by
  refine (Session.advance_checked_of_works works _).trans ?_
  change Session.advance shop .empty (.acquire (.item item.id) _) = _
  rw [Session.advance, if_neg (by simp)]
  simp only [granted]
  have hlook : Shop.look { shop with locks } (.item item.id) = .ok (t.items.get? item.id) :=
    Shop.look_archive store (.item item.id)
  refine (Session.advance_act_look hlook).trans ?_
  rw [Tables.register]
  cases t.items.get? item.id with
  | none =>
      have hput : shop.store.putItem item = .archive (.ofTables (t.putItem item)) := by
        rw [store, Store.putItem, Archive.putItem_ofTables]
      simp only [← hput]
      rfl
  | some row =>
      simp only [← store]
      rfl

theorem advance_registration_memory (store : shop.store = .memory t) (calm : shop.failing = []) :
    Session.advance shop .empty (registration ⟨tariff, .memory⟩ item) =
      ({ shop with store := .memory (t.register item).1 },
        ⟨.empty, .running (.done (.flag (.ok (t.register item).2)))⟩) :=
  advance_register_memory tariff item store (calm ▸ List.not_mem_nil) _

theorem advance_registration_archive (store : shop.store = .archive (.ofTables t))
    (calm : shop.failing = []) {locks : RowLocks}
    (granted : (shop.locks.request (.item item.id)).2.grant?
      (shop.locks.request (.item item.id)).1 = some locks) :
    Session.advance shop .empty (registration ⟨tariff, .archive⟩ item) =
      ({ shop with
          store := .archive (.ofTables (t.register item).1)
          locks := locks.giveBack (shop.locks.request (.item item.id)).1 },
        ⟨.empty, .running (.done (.flag (.ok (t.register item).2)))⟩) :=
  advance_register_archive tariff item store (calm ▸ List.not_mem_nil) granted _

end

end RentalDesk
