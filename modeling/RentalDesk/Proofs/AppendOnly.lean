import RentalDesk.Proofs.Custody.Floor
import RentalDesk.Proofs.Custody.Services
import RentalDesk.Proofs.Schedule

/-!
# The history is only added to

Whatever is registered, rented, paid and listed at the same time, and whoever fails, waits too long
or is dropped: of two states of a store, the later one keeps the history of the earlier one. No row
disappears, what is final is unchanged, and every row stays about what it is about. A commit alters
at most one row of each table that was there before.
-/

namespace RentalDesk

open Script

/-- Whoever comes is served on the terms of the desk. -/
def Event.Served {ν : Type} (terms : Terms) : Event ν Answer → Prop
  | .comes _ task => ∃ service : Service, task = service.task terms
  | _ => True

/-- Whoever is served keeps to the policy of the desk. -/
theorem Event.Served.heeded {ν : Type} {terms : Terms} {e : Event ν Answer} (h : e.Served terms) :
    e.Heeded .history terms.medium := by
  cases e with
  | comes v task =>
      obtain ⟨service, rfl⟩ := h
      exact (service.keeps terms).mono fun _ _ _ => trivial
  | _ => trivial

namespace Tables

/-- The later rows keep the history: none has disappeared, closed rentals, settled fees and invoices
are unchanged, and the others are about the same as before. -/
structure History (t later : Tables) : Prop where
  items : ∀ id item, t.items.get? id = some item → ∃ item', later.items.get? id = some item' ∧
    item'.id = item.id ∧ item'.title = item.title
  rentals : ∀ id rental, t.rentals.get? id = some rental →
    ∃ rental', later.rentals.get? id = some rental' ∧ rental'.id = rental.id ∧
      rental'.itemId = rental.itemId ∧ rental'.renterId = rental.renterId ∧
      rental'.rentedAt = rental.rentedAt ∧ (rental.isOpen = false → rental' = rental)
  fees : ∀ id fee, t.fees.get? id = some fee → ∃ fee', later.fees.get? id = some fee' ∧
    fee'.id = fee.id ∧ fee'.rentalId = fee.rentalId ∧ (fee.isSettled = true → fee' = fee)
  invoices : ∀ id invoice, t.invoices.get? id = some invoice →
    later.invoices.get? id = some invoice

/-- The row was there before, and is another one now. -/
def Alters (t now : Tables) (key : RowKey) : Prop :=
  (t.row? key).isSome ∧ now.row? key ≠ t.row? key

end Tables

namespace Policy

variable {t later : Tables} {medium : Medium} {last : Series → Nat} {c : Custody} {action : Action}

/-- What goes on as the services of the desk let it go on is history. -/
theorem Onward.history (h : Policy.history.Onward t later) : t.History later where
  items id item hitem := by
    obtain ⟨row, hrow, continues⟩ := h.rows (.item id) (.item item) rfl (Tables.row?_item.2 hitem)
    cases row with
    | item item' => exact ⟨item', Tables.row?_item.1 hrow, continues⟩
    | _ => exact continues.elim
  rentals id rental hrental := by
    obtain ⟨row, hrow, continues⟩ :=
      h.rows (.rental id) (.rental rental) rfl (Tables.row?_rental.2 hrental)
    cases row with
    | rental rental' => exact ⟨rental', Tables.row?_rental.1 hrow, continues⟩
    | _ => exact continues.elim
  fees id fee hfee := by
    obtain ⟨row, hrow, continues⟩ := h.rows (.fee id) (.fee fee) rfl (Tables.row?_fee.2 hfee)
    cases row with
    | fee fee' => exact ⟨fee', Tables.row?_fee.1 hrow, continues⟩
    | _ => exact continues.elim
  invoices := h.invoices rfl

/-- A row that was there is altered by a commit alone, of a transaction that has staged it without
having inserted it. -/
theorem Fits.alters (h : Policy.history.Fits medium t last c)
    (permits : Policy.history.Permits medium c action) {key : RowKey}
    (alters : t.Alters (t.performed c.writes action) key) :
    c.writes.Modest ∧ (c.writes.staged.row? key).isSome ∧ key ∉ c.writes.inserted := by
  obtain ⟨present, changed⟩ := alters
  have new : ∀ item : Item, t.row? (.item item.id) = none →
      (t.putItem item).row? key = t.row? key := by
    intro item hnone
    rw [Tables.row?_putItem, if_neg]
    rintro rfl
    rw [hnone] at present
    cases present
  cases action
  case apply =>
      rw [Tables.performed, Tables.row?_merge] at changed
      refine ⟨permits.2, ?_, h.not_inserted permits.1 rfl present⟩
      cases hrow : c.writes.staged.row? key with
      | none => exact absurd (by rw [hrow, Option.none_or]) changed
      | some row => rfl
  case placeItem item => exact absurd (new item (h.known _ _ (permits.2.2 rfl)).2.2.1) changed
  case registerItem item =>
      rw [Tables.performed] at changed
      split at changed
      · exact absurd rfl changed
      · next hnew => exact absurd (new item (Tables.row?_item_of_new hnew)) changed
  all_goals exact absurd rfl changed

/-- Of each table at most one row is altered. -/
theorem Fits.alters_one (h : Policy.history.Fits medium t last c)
    (permits : Policy.history.Permits medium c action) {key other : RowKey}
    (hkey : t.Alters (t.performed c.writes action) key)
    (hother : t.Alters (t.performed c.writes action) other) (htable : key.table = other.table) :
    key = other := by
  obtain ⟨⟨item, rental, fee, modest⟩, staged, inserted⟩ := h.alters permits hkey
  obtain ⟨-, staged', inserted'⟩ := h.alters permits hother
  obtain ⟨row, hrow⟩ := Option.isSome_iff_exists.1 staged
  obtain ⟨row', hrow'⟩ := Option.isSome_iff_exists.1 staged'
  rcases (modest key row hrow).resolve_left inserted with rfl | rfl | rfl <;>
    rcases (modest other row' hrow').resolve_left inserted' with rfl | rfl | rfl <;>
    first | rfl | cases htable

end Policy

namespace Floor

variable {ν : Type} [DecidableEq ν] {terms : Terms} {medium : Medium} {shop : Shop} {t : Tables}
  {last : Series → Nat} {events : List (Event ν Answer)} {e : Event ν Answer}
  {f g : Floor ν Answer}

/-- A step alters at most one row of each table. -/
theorem Kept.alters_one (h : f.Kept .history medium t last) (step : f.Step e g) {key other : RowKey}
    (hkey : t.Alters (f.performed t e) key) (hother : t.Alters (f.performed t e) other)
    (htable : key.table = other.table) : key = other := by
  cases step with
  | @does v s s' deed shop present step =>
      cases step with
      | act =>
          obtain ⟨c, rfl, fits, permits, -⟩ := h.sessions v _ present
          rw [performed, present, Option.elim_some] at hkey hother
          exact fits.alters_one permits hkey hother htable
      | _ => exact absurd rfl hkey.2
  | _ => exact absurd rfl hkey.2

/-- Any number of items are registered, items rented, fees paid and rows listed at the same time, on
either medium. Calls may fail, rows may be refused and sessions dropped at any time. Then every
later state keeps the history of every earlier one, and a step alters at most one row of each table
that was there. -/
theorem Run.append_only (terms : Terms) (opened : shop.Opened terms.medium t last)
    (run : (ofShop shop).Run events f) (served : ∀ e ∈ events, e.Served terms)
    (few : ∀ s, last s + draws events s < UInt64.size) :
    ∃ now : Tables, f.shop.store = now.keptIn terms.medium ∧
      (∀ more g, f.Run more g → (∀ e ∈ more, e.Served terms) →
        (∀ s, last s + draws (events ++ more) s < UInt64.size) →
        ∃ later : Tables, g.shop.store = later.keptIn terms.medium ∧ now.History later) ∧
      ∀ e g, f.Step e g → ∃ next : Tables, g.shop.store = next.keptIn terms.medium ∧
        ∀ key other : RowKey, now.Alters next key → now.Alters next other →
          key.table = other.table → key = other := by
  have sound := Policy.history_sound terms.medium
  have heeded := fun e he => (served e he).heeded
  obtain ⟨now, kept, -⟩ := run.kept sound (kept_ofShop opened) heeded few
  refine ⟨now, kept.store, fun more g rest served' few' => ?_, fun e g step => ?_⟩
  · have heeded' := fun e he => (served' e he).heeded
    obtain ⟨later, kept', onward⟩ := rest.kept sound kept heeded' (few_of_append few').2
    exact ⟨later, kept'.store, onward.history⟩
  · exact ⟨_, step.store kept.store, fun _ _ => kept.alters_one step⟩

end Floor

/-! ## A day at the desk -/

section

variable {ν : Type}

/-- A sitting of those who want the services. -/
def servings (terms : Terms) (services : List (ν × Service)) :
    List (ν × Nat) → List ν → List (Move ν Answer) :=
  sitting (services.map fun s => (s.1, s.2.task terms))

/-- Whoever comes by the move is served. -/
def Move.Serves (terms : Terms) : Move ν Answer → Prop
  | .comes _ task => ∃ service : Service, task = service.task terms
  | _ => True

theorem serves_servings {terms : Terms} {services : List (ν × Service)} {turns : List (ν × Nat)}
    {leaving : List ν} : ∀ m ∈ servings terms services turns leaving, m.Serves terms := by
  intro m hm
  rcases List.mem_append.1 hm with hm | hm
  · rcases List.mem_append.1 hm with hm | hm
    · obtain ⟨t, ht, rfl⟩ := List.mem_map.1 hm
      obtain ⟨s, -, rfl⟩ := List.mem_map.1 ht
      exact ⟨s.2, rfl⟩
    · obtain ⟨turn, -, hturn⟩ := List.mem_flatMap.1 hm
      obtain rfl := List.eq_of_mem_replicate hturn
      trivial
  · obtain ⟨v, -, rfl⟩ := List.mem_map.1 hm
    trivial

variable [DecidableEq ν]

theorem served_of_serves {terms : Terms} {ms : List (Move ν Answer)} {f : Floor ν Answer}
    (h : ∀ m ∈ ms, m.Serves terms) : ∀ e ∈ (f.follow ms).1, e.Served terms := by
  intro e he
  obtain ⟨m, hm, brings⟩ := Floor.mem_follow he
  have serves := h m hm
  cases m with
  | comes v task =>
      obtain rfl := brings
      exact serves
  | goesOn v =>
      obtain ⟨deed, rfl⟩ := brings
      trivial
  | givesUp v =>
      obtain ⟨deed, rfl⟩ := brings
      trivial
  | leaves v =>
      obtain rfl := brings
      trivial
  | turns o =>
      obtain rfl := brings
      trivial

theorem served_follow {terms : Terms} {services : List (ν × Service)} {turns : List (ν × Nat)}
    {leaving : List ν} {f : Floor ν Answer} {e : Event ν Answer}
    (h : e ∈ (f.follow (servings terms services turns leaving)).1) : e.Served terms :=
  served_of_serves serves_servings e h

end

/-- Two renters want the item that is being registered. The first one gets it and pays. -/
def shift : List (Move Nat Answer) :=
  servings ⟨.standard, .memory⟩
    [(0, .register (.new 1 "Heat")), (1, .call (.rent 7 1)), (2, .call (.rent 8 1)),
      (3, .call (.pay 1 7))]
    [(0, 5), (1, 8), (2, 8), (1, 30), (2, 30), (3, 40)] []

theorem Floor.Run.append_only_shift :
    let f := ((ofShop (Shop.opened (.empty .memory) .fresh 100 .epoch)).follow shift).2
    (f.shop.store.fee? 1).toOption.join.any Fee.isSettled = true ∧
      ∃ now : Tables, f.shop.store = now.keptIn .memory ∧
        (∀ more g, f.Run more g → (∀ e ∈ more, e.Served ⟨.standard, .memory⟩) →
          (∀ s, 0 + draws (((ofShop (Shop.opened (.empty .memory) .fresh 100 .epoch)).follow
            shift).1 ++ more) s < UInt64.size) →
          ∃ later : Tables, g.shop.store = later.keptIn .memory ∧ now.History later) ∧
        ∀ e g, f.Step e g → ∃ next : Tables, g.shop.store = next.keptIn .memory ∧
          ∀ key other : RowKey, now.Alters next key → now.Alters next other →
            key.table = other.table → key = other := by
  refine ⟨by decide +kernel, ?_⟩
  refine Floor.Run.append_only ⟨.standard, .memory⟩ (Shop.opened_empty .memory 100 .epoch)
    (run_follow _ shift) (fun e => served_follow) fun s => ?_
  rw [Nat.zero_add]
  exact Nat.lt_of_le_of_lt (draws_follow_le _ shift s) (by decide +kernel)

end RentalDesk
