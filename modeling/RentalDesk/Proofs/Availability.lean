import RentalDesk.Proofs.Order
import RentalDesk.Proofs.Schedule

/-!
# Availability

The flag of an item and the rentals of the item are in different tables and are changed by
different errands. In every run from an empty store the flag of an item is down exactly as long as
there is an open rental of the item, there is never more than one such rental, and every rental is
one of an item that is registered.
-/

namespace RentalDesk

namespace Tables

variable (t : Tables)

/-- The item is registered and not on the shelf. -/
def Out (id : ItemId) : Prop := ∃ item, t.items.get? id = some item ∧ item.available = false

/-- The rental is stored and open. -/
def Open (key : RentalId) (rental : Rental) : Prop :=
  t.rentals.get? key = some rental ∧ rental.returnedAt = none

/-- The shelf and the open rentals agree. -/
structure ShelfAgrees : Prop where
  out_iff : ∀ id, t.Out id ↔ ∃ key rental, t.Open key rental ∧ rental.itemId = id
  one : ∀ key key' rental rental', t.Open key rental → t.Open key' rental' →
    rental.itemId = rental'.itemId → key = key'
  registered : ∀ key rental, t.rentals.get? key = some rental →
    ∃ item, t.items.get? rental.itemId = some item

variable {t} {item : Item} {rental : Rental} {fee : Fee} {now : Instant}

theorem out_putItem {id : ItemId} :
    (t.putItem item).Out id ↔ if id = item.id then item.available = false else t.Out id := by
  simp only [Out, putItem, Table.get?_insert]
  split <;> simp

theorem out_lend {id : ItemId} : (t.lend item rental fee).Out id ↔ id = item.id ∨ t.Out id := by
  simp only [Out, items_lend, Table.get?_insert]
  split
  · next hid => simp [hid]
  · next hid => simp [hid]

theorem out_close {id : ItemId} : (t.close item rental now).Out id ↔ id ≠ item.id ∧ t.Out id := by
  simp only [Out, items_close, Table.get?_insert]
  split
  · next hid => simp [hid]
  · next hid => simp [hid]

theorem open_lend (fresh : t.rentals.get? rental.id = none) (still : rental.returnedAt = none)
    {key : RentalId} {other : Rental} : (t.lend item rental fee).Open key other ↔
      key = rental.id ∧ other = rental ∨ t.Open key other := by
  simp only [Open, rentals_lend, Table.get?_insert]
  split
  · next hkey =>
      subst hkey
      simp only [fresh, Option.some.injEq, reduceCtorEq, false_and, or_false, true_and]
      exact ⟨fun h => h.1.symm, fun h => ⟨h.symm, h ▸ still⟩⟩
  · next hkey => simp [hkey]

theorem open_close {key : RentalId} {other : Rental} :
    (t.close item rental now).Open key other ↔ key ≠ rental.id ∧ t.Open key other := by
  simp only [Open, rentals_close, Table.get?_insert]
  split
  · next hkey =>
      simp only [hkey, Option.some.injEq, ne_eq, not_true_eq_false, false_and, iff_false, not_and]
      rintro rfl
      exact Option.some_ne_none now
  · next hkey => simp [hkey]

namespace ShelfAgrees

theorem empty : Tables.empty.ShelfAgrees where
  out_iff id := by simp [Out, Open, Tables.empty]
  one key key' rental rental' h := by simp [Open, Tables.empty] at h
  registered key rental h := by simp [Tables.empty] at h

theorem putItem (h : t.ShelfAgrees) (new : t.items.get? item.id = none)
    (available : item.available = true) : (t.putItem item).ShelfAgrees where
  out_iff id := by
    rw [out_putItem]
    split
    · next hid =>
        subst hid
        refine iff_of_false (by simp [available]) fun hopen => ?_
        obtain ⟨found, hfound, -⟩ := (h.out_iff item.id).2 hopen
        rw [new] at hfound
        cases hfound
    · exact h.out_iff id
  one := h.one
  registered key rental hrental := by
    obtain ⟨found, hfound⟩ := h.registered key rental hrental
    simp only [Tables.putItem, Table.get?_insert]
    split
    · exact ⟨item, rfl⟩
    · exact ⟨found, hfound⟩

/-- An item on the shelf has no open rental, so the one that is recorded is the only one. -/
theorem lend (h : t.ShelfAgrees) (found : t.items.get? item.id = some item)
    (available : item.available = true) (fresh : t.rentals.get? rental.id = none)
    (lent : rental.itemId = item.id) (still : rental.returnedAt = none) :
    (t.lend item rental fee).ShelfAgrees := by
  have hnone : ∀ key other, t.Open key other → other.itemId ≠ item.id := by
    intro key other hopen hid
    obtain ⟨row, hrow, hout⟩ := (h.out_iff item.id).2 ⟨key, other, hopen, hid⟩
    rw [found] at hrow
    rw [← Option.some.inj hrow, available] at hout
    cases hout
  constructor
  case out_iff =>
    intro id
    simp only [out_lend, open_lend fresh still, h.out_iff]
    constructor
    · rintro (rfl | ⟨key, other, hopen, hid⟩)
      · exact ⟨rental.id, rental, .inl ⟨rfl, rfl⟩, lent⟩
      · exact ⟨key, other, .inr hopen, hid⟩
    · rintro ⟨key, other, ⟨rfl, rfl⟩ | hopen, hid⟩
      · exact .inl (hid.symm.trans lent)
      · exact .inr ⟨key, other, hopen, hid⟩
  case one =>
    intro key key' other other' hother hother' hid
    rw [open_lend fresh still] at hother hother'
    rcases hother with ⟨rfl, rfl⟩ | hother <;> rcases hother' with ⟨rfl, rfl⟩ | hother'
    · rfl
    · exact absurd (hid.symm.trans lent) (hnone key' other' hother')
    · exact absurd (hid.trans lent) (hnone key other hother)
    · exact h.one key key' other other' hother hother' hid
  case registered =>
    intro key other hother
    simp only [rentals_lend, items_lend, Table.get?_insert] at hother ⊢
    split
    · exact ⟨_, rfl⟩
    · next hid =>
        split at hother
        · exact absurd (Option.some.inj hother ▸ lent) hid
        · exact h.registered key other hother

/-- The rental that is closed was the only open one of its item. -/
theorem close (h : t.ShelfAgrees) (lent : t.Open rental.id rental)
    (of : item.id = rental.itemId) : (t.close item rental now).ShelfAgrees := by
  constructor
  case out_iff =>
    intro id
    simp only [out_close, open_close, h.out_iff]
    constructor
    · rintro ⟨hid, key, other, hopen, rfl⟩
      refine ⟨key, other, ⟨?_, hopen⟩, rfl⟩
      rintro rfl
      rw [Option.some.inj (hopen.1.symm.trans lent.1)] at hid
      exact hid of.symm
    · rintro ⟨key, other, ⟨hkey, hopen⟩, rfl⟩
      exact ⟨fun hid => hkey (h.one key rental.id other rental hopen lent (hid.trans of)),
        key, other, hopen, rfl⟩
  case one =>
    intro key key' other other' hother hother'
    exact h.one key key' other other' (open_close.1 hother).2 (open_close.1 hother').2
  case registered =>
    intro key other hother
    simp only [rentals_close, items_close, Table.get?_insert] at hother ⊢
    split
    · exact ⟨_, rfl⟩
    · next hid =>
        split at hother
        · exact absurd (Option.some.inj hother ▸ of.symm) hid
        · exact h.registered key other hother

theorem settle (h : t.ShelfAgrees) (fee : Fee) (invoice : Invoice) :
    (t.settle fee invoice).ShelfAgrees :=
  ⟨h.out_iff, h.one, h.registered⟩

/-- Every change of an errand keeps the shelf and the open rentals in agreement. -/
theorem change {c : Circumstances} {errand : Errand} {o : Outcome} {after : Tables}
    (h : t.ShelfAgrees) (keyed : t.Keyed) (hchange : Errand.Change c t errand o after)
    (fresh : ∀ series ∈ errand.draws, t.uses series (c.ids.next series) = false) :
    after.ShelfAgrees := by
  cases hchange with
  | registered new => exact h.putItem new rfl
  | rented found available =>
      obtain rfl := keyed.item_id found
      have hfresh := Tables.get?_of_unused_rental (fresh .rentals List.mem_cons_self)
      exact h.lend found available hfresh rfl rfl
  | returned _ _ lent _ still found =>
      have hid := keyed.rental_id lent
      exact (h.close ⟨hid ▸ lent, still⟩ (keyed.item_id found)).settle _ _
  | paid => exact h.settle _ _

end ShelfAgrees

end Tables

theorem Chain.shelfAgrees {tariff : Tariff} {t₀ t : Tables} {entries : List Entry}
    (h : Chain tariff t₀ entries t) (keyed : t₀.Keyed) (agrees : t₀.ShelfAgrees) :
    t.ShelfAgrees :=
  (h.invariant (P := fun t => t.Keyed ∧ t.ShelfAgrees) ⟨keyed, agrees⟩
    fun _ _ _ _ _ ih change _ fresh => ⟨change.keyed ih.1, ih.2.change ih.1 change fresh⟩).2

/-- Whoever does what in which order: the items that are out are those with an open rental. -/
theorem Floor.Run.shelf_agrees {tariff : Tariff} {lockWait : Nat} {clock : Instant}
    {events : List (Event Visit Outcome)} {f : Floor Visit Outcome}
    (run : (Floor.opened lockWait clock).Run events f)
    (ordinary : ∀ e ∈ events, e.Ordinary tariff)
    (few : ∀ series, drawn events series < UInt64.size) :
    ∃ t, f.shop.store = .memory t ∧ t.ShelfAgrees := by
  obtain ⟨t, order⟩ := run.orderly (Floor.quiet_opened ..) ordinary fun series =>
    Floor.reach_opened lockWait clock events series ▸ few series
  exact ⟨t, order.store, order.chain.shelfAgrees .empty .empty⟩

/-- Two want to rent an item that a third one is registering. The second one comes to the item
while the first one has it locked. -/
def rush : List (Move Visit Outcome) :=
  let register : Visit := ⟨0, .register 1 "Heat"⟩
  let first : Visit := ⟨1, .rent 7 1⟩
  let second : Visit := ⟨2, .rent 8 1⟩
  turnsOf .standard [register, first, second]
    [(register, 5), (first, 8), (second, 8), (first, 30), (second, 30)]

theorem Floor.Run.shelf_agrees_rush :
    ∃ t, ((Floor.opened 100 .epoch).follow rush).2.shop.store = .memory t ∧ t.Out 1 ∧
      t.ShelfAgrees := by
  have rented : (((Floor.opened 100 .epoch).follow rush).2.shop.store.item? 1).toOption =
      some (some ⟨1, "Heat", false⟩) := by decide +kernel
  obtain ⟨t, hstore, agrees⟩ := Floor.Run.shelf_agrees
    ((Floor.opened 100 .epoch).run_follow rush) (fun e => ordinary_turns) fun series =>
      Nat.lt_of_le_of_lt (drawn_follow_le _ rush series) (by decide)
  rw [hstore] at rented
  exact ⟨t, hstore, ⟨_, Option.some.inj rented, rfl⟩, agrees⟩

end RentalDesk
