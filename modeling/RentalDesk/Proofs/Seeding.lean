import RentalDesk.Proofs.Dealing.Stocked
import RentalDesk.Proofs.Plain.Undisturbed
import RentalDesk.Proofs.Turns

/-!
# Seeding

A catalog is put on the shelf of a desk on whatever floor was reached, unless the row of an item is
claimed there. Its rows are merged into the register: an item that is registered stays as it is,
and of several rows with one identifier the first readable one counts. Each registration is a visit
to the floor, so the desk goes on from it as from any other floor; and as items are never taken out
of the register, seeding the same catalog later changes nothing.
-/

namespace RentalDesk

open Script

/-! ## Registering in tables -/

namespace Table

variable {κ ν : Type} [Ord κ] {key : κ} {value : ν}

theorem length_put_of_new {rows : List (κ × ν)} (new : find? key rows = none) :
    (put key value rows).length = rows.length + 1 := by
  induction rows with
  | nil => rfl
  | cons row rows ih =>
      rw [find?] at new
      split at new
      · cases new
      · next differs =>
          rw [put]
          split
          · rfl
          · next same => exact absurd same differs
          · rw [List.length_cons, ih new, List.length_cons]

theorem size_insert_of_new [Std.TransOrd κ] [Std.LawfulEqOrd κ] {t : Table κ ν}
    (new : t.get? key = none) : (t.insert key value).size = t.size + 1 := length_put_of_new new

end Table

namespace Tables

variable (t : Tables) (item : Item) (items : List Item)

/-- The tables after the items were registered one after another. -/
def stock (items : List Item) : Tables := items.foldl (fun t item => (t.register item).1) t

theorem stock_cons : t.stock (item :: items) = (t.register item).1.stock items := rfl

theorem get?_register (id : ItemId) : (t.register item).1.items.get? id =
    (t.items.get? id).or (if item.id = id then some item else none) := by
  rw [register]
  cases known : t.items.get? item.id with
  | none =>
      by_cases hid : item.id = id
      · subst hid
        simp [putItem, known]
      · simp [putItem, hid, Ne.symm hid]
  | some row =>
      by_cases hid : item.id = id
      · subst hid
        simp [known]
      · simp [hid]

theorem size_register :
    (t.register item).1.items.size = t.items.size + if (t.register item).2 then 1 else 0 := by
  rw [register]
  cases known : t.items.get? item.id with
  | none => exact Table.size_insert_of_new known
  | some row => rfl

theorem ShelfAgrees.register {t : Tables} {item : Item} (h : t.ShelfAgrees)
    (available : item.available = true) : (t.register item).1.ShelfAgrees := by
  rw [Tables.register]
  cases known : t.items.get? item.id with
  | none => exact h.putItem known available
  | some row => exact h

theorem register_eq : (t.register item).1 = { t with items := (t.register item).1.items } := by
  rw [register]
  split <;> rfl

/-- Nothing but items is added. -/
theorem stock_eq : t.stock items = { t with items := (t.stock items).items } := by
  induction items generalizing t with
  | nil => rfl
  | cons item items ih =>
      rw [stock_cons, ih, register_eq]

/-- An item that is registered stays, and the first one of several is registered. -/
theorem get?_stock (id : ItemId) : (t.stock items).items.get? id =
    (t.items.get? id).or (items.find? (·.id = id)) := by
  induction items generalizing t with
  | nil => exact (Option.or_none ..).symm
  | cons item items ih =>
      rw [stock_cons, ih, get?_register, Option.or_assoc, List.find?_cons]
      by_cases hid : item.id = id <;> simp [hid]

theorem ShelfAgrees.stock {t : Tables} (h : t.ShelfAgrees) {items : List Item}
    (available : ∀ item ∈ items, item.available = true) : (t.stock items).ShelfAgrees := by
  induction items generalizing t with
  | nil => exact h
  | cons item items ih =>
      rw [List.forall_mem_cons] at available
      exact ih (h.register available.1) available.2

/-- Registering items that are registered changes nothing. -/
theorem stock_of_known {t : Tables} {items : List Item}
    (known : ∀ item ∈ items, (t.items.get? item.id).isSome) : t.stock items = t := by
  induction items with
  | nil => rfl
  | cons item items ih =>
      rw [List.forall_mem_cons] at known
      obtain ⟨row, hrow⟩ := Option.isSome_iff_exists.1 known.1
      rw [stock_cons, register, hrow]
      exact ih known.2

theorem isSome_stock {items : List Item} {item : Item} (mem : item ∈ items) :
    ((t.stock items).items.get? item.id).isSome := by
  rw [get?_stock, Option.isSome_or, Bool.or_eq_true]
  exact .inr (List.find?_isSome.2 ⟨item, mem, decide_eq_true rfl⟩)

end Tables

/-! ## Rows of a catalog -/

namespace Catalog

/-- The title in the first readable row of an identifier that is not zero. -/
def firstTitle? (rows : List (Except CatalogCause Entry)) (id : ItemId) : Option String :=
  if id = 0 then none else ((rows.filterMap Except.toOption).find? (·.id = id)).map (·.title)

/-- The items of a catalog. -/
def stockOf (rows : List (Except CatalogCause Entry)) : List Item :=
  (rows.filterMap usable?).map Entry.toItem

theorem available_stockOf (rows : List (Except CatalogCause Entry)) :
    ∀ item ∈ stockOf rows, item.available = true := by
  intro item hitem
  obtain ⟨entry, -, rfl⟩ := List.mem_map.1 hitem
  rfl

/-- The first item of an identifier has the title of the first readable row. -/
theorem find?_stockOf (rows : List (Except CatalogCause Entry)) (id : ItemId) :
    (stockOf rows).find? (·.id = id) = (firstTitle? rows id).map (Item.new id) := by
  induction rows with
  | nil => simp [stockOf, firstTitle?]
  | cons row rows ih =>
      cases row with
      | error cause => exact ih
      | ok entry =>
          simp only [stockOf, firstTitle?] at ih ⊢
          by_cases hzero : entry.id = 0
          · by_cases hid : id = 0
            · simpa [usable?, hzero, hid] using ih
            · simpa [usable?, Except.toOption, hzero, hid, Ne.symm hid] using ih
          · by_cases hid : entry.id = id
            · simp [usable?, Except.toOption, Entry.toItem, Item.new, ← hid, hzero]
            · simpa [usable?, Except.toOption, Entry.toItem, Item.new, hid, hzero] using ih

end Catalog

/-- The rows of a catalog are merged into tables: so many items are added, one for each identifier
that was not registered and has a readable row, and nothing else is changed. -/
structure Tables.Seeded (t : Tables) (rows : List (Except CatalogCause Catalog.Entry)) (added : Nat)
    (t' : Tables) : Prop where
  rentals : t'.rentals = t.rentals
  fees : t'.fees = t.fees
  invoices : t'.invoices = t.invoices
  items : ∀ id, t'.items.get? id =
    (t.items.get? id).or ((Catalog.firstTitle? rows id).map (Item.new id))
  added : t'.items.size = t.items.size + added

/-! ## Visits that register -/

theorem Task.bind_done {α : Type} (task : Task α) : task >>= Task.done = task := by
  change task.bind .done = task
  induction task with
  | done a => rfl
  | act action next ih => exact congrArg (Task.act action) (funext ih)
  | acquire key next ih => exact congrArg (Task.acquire key) (funext ih)

section

variable {ν ρ : Type} {good : Action → Bool}

/-- What is done is good. -/
def Deed.Keeps (good : Action → Bool) : Deed → Prop
  | .did action _ => good action = true
  | _ => True

/-- All actions that the session has still to do are good. -/
def Session.Asks (good : Action → Bool) (s : Session ρ) : Prop :=
  match s.stage with
  | .running task => task.Asks good
  | .waiting _ _ next => ∀ granted, (next granted).Asks good

theorem Session.Step.asks {shop shop' : Shop} {s s' : Session ρ} {deed : Deed}
    (step : Session.Step shop s deed shop' s') (h : s.Asks good) :
    deed.Keeps good ∧ s'.Asks good := by
  cases step with
  | act => exact ⟨h.1, h.2 _⟩
  | pass => exact ⟨trivial, h true⟩
  | ask => exact ⟨trivial, h⟩
  | take => exact ⟨trivial, h true⟩
  | giveUp => exact ⟨trivial, h false⟩

/-- A visit in one go leaves everybody else alone. -/
theorem Floor.run_of_visit [DecidableEq ν] {f : Floor ν ρ} {v : ν} (absent : f.sessions v = none)
    {task : Task ρ} (asks : task.Asks good) {shop : Shop} {a : ρ}
    (advance : Session.advance f.shop .empty task = (shop, ⟨.empty, .running (.done a)⟩)) :
    ∃ events, (∀ e ∈ events, e = .comes v task ∨
        (∃ deed : Deed, e = .does v deed ∧ deed.Keeps good) ∨ e = .leaves v) ∧
      f.Run events ⟨shop, f.sessions⟩ := by
  have walk := Session.walk_advance f.shop .empty task
  rw [advance] at walk
  obtain ⟨events, hevents, run⟩ :=
    run_of_walk_keeping (f := f.put v f.shop (.start task)) Session.Step.asks
      (put_sessions_self ..) asks walk
  have whole := Run.snoc (.cons (.comes absent) run) (.leaves (put_sessions_self ..))
  refine ⟨.comes v task :: events ++ [.leaves v], fun e he => ?_, ?_⟩
  · rcases List.mem_append.1 he with he | he
    · exact (List.mem_cons.1 he).imp id fun he => .inl (hevents e he)
    · exact .inr (.inr (List.mem_singleton.1 he))
  · rw [put_put, remove, put, Function.update_idem, ← absent, Function.update_eq_self] at whole
    exact whole

end

/-- What may happen while available items are registered. -/
structure Event.Restocks {ν : Type} (terms : Terms) (e : Event ν Answer) : Prop where
  served : e.Served terms
  stocks : e.Stocks
  draws : e.draws? = none

theorem stocks_of_registers {item : Item} (available : item.available = true) {action : Action}
    (registers : action.registers item = true) : action.stocks = true := by
  cases action
  case registerItem row => exact of_decide_eq_true registers ▸ available
  case placeItem row => exact of_decide_eq_true registers ▸ available
  all_goals rfl

theorem Deed.Keeps.restocks {ν : Type} {terms : Terms} {item : Item} {deed : Deed}
    (h : deed.Keeps (Action.registers item)) (available : item.available = true) (v : ν) :
    (Event.does v deed : Event ν Answer).Restocks terms := by
  cases deed with
  | did action answer =>
      refine ⟨trivial, stocks_of_registers available h, ?_⟩
      cases action <;> first | rfl | cases h
  | _ => exact ⟨trivial, trivial, rfl⟩

section

variable {ν : Type} {terms : Terms} {shop : Shop} {t : Tables} {claims : ν → Claims}

/-- On either medium an item is registered at once if nobody claims its row. -/
theorem advance_register (store : shop.store = t.keptIn terms.medium)
    (works : .registerItem ∉ shop.failing) (serves : shop.locks.Serves claims) (item : Item)
    (free : ∀ v, ∀ ticket ∈ (claims v).tickets, ticket.key ≠ .item item.id) :
    ∃ locks, ∀ {ρ : Type} (k : Except Error Bool → Task ρ),
      Session.advance shop .empty ((terms.register item).run >>= k) =
        Session.advance { shop with store := (t.register item).1.keptIn terms.medium, locks } .empty
          (k (.ok (t.register item).2)) := by
  obtain ⟨tariff, medium⟩ := terms
  cases medium with
  | memory => exact ⟨shop.locks, advance_register_memory tariff item store works⟩
  | archive =>
      obtain ⟨locks, granted⟩ := serves.request_granted free
      exact ⟨_, advance_register_archive tariff item store works granted⟩

end

namespace Floor

variable {ν : Type} [DecidableEq ν] {accepts : Tariff → Prop} {allows : Event ν Answer → Prop}
  {terms terms' : Terms} {drawn drawn' : Series → Nat} {f g : Floor ν Answer} {v : ν} {t : Tables}

/-- Nobody claims the row of an item. A row that is free is handed to whoever is first in its queue,
so somebody who waits there counts as well. -/
def ItemsFree (f : Floor ν Answer) : Prop :=
  ∀ v, ∀ ticket ∈ (f.claims v).tickets, ∀ id, ticket.key ≠ .item id

/-- The registration of an item is a visit to the floor, which leaves everybody else alone. -/
theorem visit_registers (store : f.shop.store = t.keptIn terms.medium)
    (serves : f.shop.locks.Serves f.claims) (works : .registerItem ∉ f.shop.failing)
    (free : f.ItemsFree) (absent : f.sessions v = none) {item : Item}
    (available : item.available = true) :
    ∃ locks events,
      House.register ⟨terms, f.shop⟩ item =
        (⟨terms, { f.shop with store := (t.register item).1.keptIn terms.medium, locks }⟩,
          .ok (t.register item).2) ∧
      (∀ e ∈ events, e.Restocks terms) ∧
      f.Run events ⟨{ f.shop with store := (t.register item).1.keptIn terms.medium, locks },
        f.sessions⟩ := by
  obtain ⟨locks, hadvance⟩ := advance_register store works serves item fun w ticket hticket =>
    free w ticket hticket item.id
  have alone := Shop.run_eq (hadvance .done)
  rw [Task.bind_done] at alone
  have asks : (registration terms item).Asks (Action.registers item) :=
    Task.Asks.bind (Operation.asks_register terms item) fun _ => trivial
  obtain ⟨events, hevents, run⟩ := run_of_visit absent asks (hadvance _)
  refine ⟨locks, events, ?_, fun e he => ?_, run⟩
  · simp only [House.register, alone]
    rfl
  · rcases hevents e he with rfl | ⟨deed, rfl, keeps⟩ | rfl
    · exact ⟨⟨.register item, rfl⟩, trivial, rfl⟩
    · exact keeps.restocks available v
    · exact ⟨trivial, trivial, rfl⟩

/-- So are the registrations of several items. -/
theorem visits_register (store : f.shop.store = t.keptIn terms.medium)
    (serves : f.shop.locks.Serves f.claims) (works : .registerItem ∉ f.shop.failing)
    (free : f.ItemsFree) (absent : f.sessions v = none) {items : List Item}
    (available : ∀ item ∈ items, item.available = true) (added : Nat) :
    ∃ locks events total,
      Catalog.registerAll House.register added ⟨terms, f.shop⟩ items =
        (⟨terms, { f.shop with store := (t.stock items).keptIn terms.medium, locks }⟩,
          .ok total) ∧
      (t.stock items).items.size + added = t.items.size + total ∧
      (∀ e ∈ events, e.Restocks terms) ∧
      f.Run events ⟨{ f.shop with store := (t.stock items).keptIn terms.medium, locks },
        f.sessions⟩ := by
  induction items generalizing f t added with
  | nil =>
      refine ⟨f.shop.locks, [], added, ?_, rfl, fun e he => absurd he List.not_mem_nil, ?_⟩
      · rw [Catalog.registerAll, Tables.stock, List.foldl_nil, ← store]
      · rw [Tables.stock, List.foldl_nil, ← store]
        exact .nil
  | cons item items ih =>
      rw [List.forall_mem_cons] at available
      obtain ⟨locks, events, first, hevents, run⟩ :=
        visit_registers store serves works free absent available.1
      obtain ⟨locks', more, total, rest, count, hmore, run'⟩ :=
        ih rfl (run.serves serves) works free absent available.2
          (if (t.register item).2 then added + 1 else added)
      refine ⟨locks', events ++ more, total, ?_, ?_, ?_, run.append run'⟩
      · rw [Catalog.registerAll, first]
        exact rest
      · rw [Tables.size_register] at count
        rw [Tables.stock_cons]
        split at count <;> omega
      · exact List.forall_mem_append.2 ⟨hevents, hmore⟩

namespace Reached

/-- A desk comes to whatever is left of registrations. -/
theorem restocked (reached : f.Reached accepts terms drawn) {events : List (Event ν Answer)}
    (restocks : ∀ e ∈ events, e.Restocks terms) (run : f.Run events g) :
    f.ComesTo accepts Event.Stocks terms drawn terms drawn g := by
  have none : ∀ s, draws events s = 0 := fun s =>
    List.countP_eq_zero.2 fun e he => by simp [(restocks e he).draws]
  have here : f.ComesTo accepts Event.Stocks terms drawn terms drawn f := .stays
  have comes := here.run run (fun e he => (restocks e he).served)
    (fun e he => (restocks e he).stocks) fun s => by
      rw [none]
      exact reached.few s
  simpa only [none, Nat.add_zero] using comes

/-- Where all items are registered already, registering them changes nothing but the bookkeeping of
the row locks. -/
theorem seeds_nothing [Infinite ν] (reached : f.Reached accepts terms drawn) (free : f.ItemsFree)
    (works : .registerItem ∉ f.shop.failing) {items : List Item}
    (available : ∀ item ∈ items, item.available = true)
    (known : ∀ item ∈ items, ∃ row, f.shop.store.item? item.id = .ok (some row)) :
    ∃ locks : RowLocks, let again : Shop := { f.shop with locks }
      Catalog.registerAll House.register 0 ⟨terms, f.shop⟩ items = (⟨terms, again⟩, .ok 0) ∧
      f.ComesTo accepts Event.Stocks terms drawn terms drawn ⟨again, f.sessions⟩ := by
  obtain ⟨t, last, -, kept⟩ := reached.kept
  obtain ⟨v, absent⟩ := reached.exists_absent
  have same : t.stock items = t := Tables.stock_of_known fun item mem => by
    obtain ⟨row, hrow⟩ := known item mem
    rw [kept.store, Tables.item?_keptIn, Except.ok.injEq] at hrow
    rw [hrow]
    rfl
  obtain ⟨locks, events, total, seeds, count, restocks, run⟩ :=
    visits_register kept.store kept.serves works free absent available 0
  rw [same] at seeds count run
  obtain rfl : total = 0 := by omega
  rw [← kept.store] at seeds run
  exact ⟨locks, seeds, reached.restocked restocks run⟩

/-- On every floor that is reached and where nobody claims the row of an item, a catalog is merged
into the register, and availability is as before. The desk goes on from there as if all items had
been registered by visitors. Whatever it comes to, seeding the same catalog again adds nothing, and
changes nothing but the bookkeeping of the row locks. -/
theorem seeding_merges [Infinite ν] (reached : f.Reached accepts terms drawn)
    (free : f.ItemsFree) (works : .registerItem ∉ f.shop.failing) (source : Bytes) :
    ∃ (t t' : Tables) (locks : RowLocks) (added : Nat),
      let seeded : Shop := { f.shop with store := t'.keptIn terms.medium, locks }
      f.shop.store = t.keptIn terms.medium ∧
      Catalog.seed House.register ⟨terms, f.shop⟩ source = (⟨terms, seeded⟩, .ok added) ∧
      t.Seeded (Catalog.read source) added t' ∧
      (f.Stocked accepts terms drawn → t.ShelfAgrees) ∧ (t.ShelfAgrees → t'.ShelfAgrees) ∧
      f.ComesTo accepts Event.Stocks terms drawn terms drawn ⟨seeded, f.sessions⟩ ∧
      ∀ {terms' drawn' g},
        (⟨seeded, f.sessions⟩ : Floor ν Answer).ComesTo accepts (fun _ => True) terms drawn terms'
          drawn' g →
        g.ItemsFree → .registerItem ∉ g.shop.failing → ∃ locks : RowLocks,
          let again : Shop := { g.shop with locks }
          Catalog.seed House.register ⟨terms', g.shop⟩ source = (⟨terms', again⟩, .ok 0) ∧
          g.ComesTo accepts Event.Stocks terms' drawn' terms' drawn' ⟨again, g.sessions⟩ := by
  let items := Catalog.stockOf (Catalog.read source)
  have available := Catalog.available_stockOf (Catalog.read source)
  obtain ⟨t, last, -, kept⟩ := reached.kept
  obtain ⟨v, absent⟩ := reached.exists_absent
  obtain ⟨locks, events, added, seeds, count, restocks, run⟩ :=
    visits_register kept.store kept.serves works free absent available 0
  have comes := reached.restocked restocks run
  refine ⟨t, t.stock items, locks, added, kept.store, seeds, ?_, fun h => h.shelfAgrees kept.store,
    fun h => h.stock available, comes, fun {terms' drawn' g} later free' works' => ?_⟩
  · exact {
      rentals := by rw [Tables.stock_eq]
      fees := by rw [Tables.stock_eq]
      invoices := by rw [Tables.stock_eq]
      items := fun id => by rw [Tables.get?_stock, Catalog.find?_stockOf]
      added := count }
  · have reached' := comes.reached reached
    refine (later.reached reached').seeds_nothing free' works' available fun item mem => ?_
    obtain ⟨row, hrow⟩ := Option.isSome_iff_exists.1 (t.isSome_stock mem)
    exact later.item_stays reached' ((Tables.item?_keptIn ..).trans (congrArg Except.ok hrow))

end Reached

end Floor

/-- An item is registered and rented, and the renter stays. -/
def firstRental : List (Move Nat Answer) :=
  servings ⟨.standard, .archive⟩
    [(0, .register (.new 1 "Heat")), (1, .call (.rent 7 1))] [(0, 8), (1, 30)] []

/-- A catalog with an item that is registered, a row that cannot be read, one without identifier,
and two of one identifier. -/
def mixedCatalog : Bytes :=
  "id,title\n1,Alien\nx,Broken\n0,Zero\n2,Alien\n2,Alien again\n".toUTF8.toList

def Floor.atOpening : Floor Nat Answer := ofShop (.opened (.empty .archive) .fresh 100 .epoch)

theorem Floor.itemsFree_firstRental : (atOpening.follow firstRental).2.ItemsFree := by
  intro v ticket hticket
  have nothing : ((atOpening.follow firstRental).2.claims v).tickets = [] := by
    by_cases hv : v < 2
    · have present : ∀ v < 2, ((atOpening.follow firstRental).2.claims v).tickets = [] := by
        decide +kernel
      exact present v hv
    · have named : ∀ m ∈ firstRental, ∃ w < 2, m.name? = some w := by decide +kernel
      have unnamed : ∀ m ∈ firstRental, m.name? ≠ some v := fun m hm hname => by
        obtain ⟨w, hw, hname'⟩ := named m hm
        exact hv (Option.some.inj (hname'.symm.trans hname) ▸ hw)
      rw [claims, sessions_follow unnamed]
      rfl
  rw [nothing] at hticket
  cases hticket

theorem Floor.stocked_firstRental : (atOpening.follow firstRental).2.Stocked (fun _ => True)
    ⟨.standard, .archive⟩ fun s => 0 + draws (atOpening.follow firstRental).1 s := by
  have stocks : ∀ e ∈ (atOpening.follow firstRental).1, e.Stocks := by decide +kernel
  refine ⟨⟨.standard, .archive⟩, 100, .epoch, trivial, ComesTo.stays.run
    (atOpening.run_follow firstRental) (fun e => served_follow) stocks fun s => ?_⟩
  rw [Nat.zero_add]
  exact Nat.lt_of_le_of_lt (draws_follow_le ..) (by decide +kernel)

/-- The item that is registered stays rented, and another one is added. -/
theorem Floor.Reached.seeding_merges_mixed :
    let f := (atOpening.follow firstRental).2
    ∃ (t t' : Tables) (locks : RowLocks),
      let seeded : Shop := { f.shop with store := t'.keptIn .archive, locks }
      f.shop.store = t.keptIn .archive ∧ t.items.get? 1 = some ⟨1, "Heat", false⟩ ∧
      Catalog.seed House.register ⟨⟨.standard, .archive⟩, f.shop⟩ mixedCatalog =
        (⟨⟨.standard, .archive⟩, seeded⟩, .ok 1) ∧
      t'.rentals = t.rentals ∧ t'.items.get? 1 = some ⟨1, "Heat", false⟩ ∧
      t'.items.get? 2 = some ⟨2, "Alien", true⟩ ∧ t'.ShelfAgrees := by
  intro f
  have reached : f.Reached (fun _ => True) ⟨.standard, .archive⟩ fun s =>
      0 + draws (atOpening.follow firstRental).1 s :=
    .of_sitting ⟨.standard, .archive⟩ trivial 100 .epoch (by decide +kernel)
  have works : .registerItem ∉ f.shop.failing := by decide +kernel
  have rows : (f.shop.store.item? 1).toOption = some (some ⟨1, "Heat", false⟩) ∧
      (f.shop.store.item? 2).toOption = some none := by decide +kernel
  have titles : Catalog.firstTitle? (Catalog.read mixedCatalog) 2 = some "Alien" := by
    decide +kernel
  have count : (Catalog.seed House.register ⟨⟨.standard, .archive⟩, f.shop⟩
      mixedCatalog).2.toOption = some 1 := by decide +kernel
  obtain ⟨t, t', locks, added, store, seeds, seeded, agrees, keeps, -⟩ :=
    reached.seeding_merges itemsFree_firstRental works mixedCatalog
  rw [store, Tables.item?_keptIn, Tables.item?_keptIn] at rows
  have rented : t.items.get? 1 = some ⟨1, "Heat", false⟩ := Option.some.inj rows.1
  have new : t.items.get? 2 = none := Option.some.inj rows.2
  rw [seeds] at count
  obtain rfl : added = 1 := Option.some.inj count
  refine ⟨t, t', locks, store, rented, seeds, seeded.rentals, ?_, ?_,
    keeps (agrees stocked_firstRental)⟩
  · rw [seeded.items, rented, Option.some_or]
  · rw [seeded.items, new, titles]
    rfl

end RentalDesk
