import RentalDesk.Proofs.AppendOnly
import RentalDesk.Proofs.Interchange.Readings

/-!
# Restarts

A desk that keeps its rows in an archive is closed and opened again, any number of times. Opening
finds in every table the largest identifier behind its last key, and the sequences go on from there.
So nothing is lost: every reading shows after opening what it showed before closing. And no
identifier is used again: one that is drawn is not zero, is not the key of a row, and was not drawn
since the desk was opened. Identifiers of transactions that were rolled back leave gaps, and others
may be committed out of their order.
-/

namespace RentalDesk

open Script

/-! ## The last key -/

namespace Table

variable {κ ν : Type} [Ord κ]

theorem mem_keys [Std.LawfulEqOrd κ] {t : Table κ ν} {key : κ} : key ∈ t.keys ↔ t.contains key := by
  rw [keys, contains, List.mem_map, Option.isSome_iff_exists]
  constructor
  · rintro ⟨row, hrow, rfl⟩
    exact ⟨row.2, get?_eq_some_iff.2 hrow⟩
  · rintro ⟨value, hvalue⟩
    exact ⟨(key, value), get?_eq_some_iff.1 hvalue, rfl⟩

/-- The last key is the largest one. -/
theorem le_lastKey [Std.ReflOrd κ] {t : Table κ ν} {last key : κ} (h : t.lastKey? = some last)
    (hkey : key ∈ t.keys) : (compare key last).isLE := by
  have ascending : t.keys.Pairwise fun a b => compare a b = .lt :=
    List.pairwise_map.2 t.ascending
  rw [lastKey?] at h
  obtain ⟨init, hinit⟩ := List.getLast?_eq_some_iff.1 h
  rw [hinit] at ascending hkey
  rcases List.mem_append.1 hkey with hmem | hmem
  · rw [(List.pairwise_append.1 ascending).2.2 key hmem last List.mem_cons_self]
    rfl
  · rw [List.mem_singleton.1 hmem, Std.ReflOrd.compare_self]
    rfl

variable {α : Type} [RowText α]

theorem keys_written (t : Table UInt64 α) : t.written.keys = t.keys.map Archive.encodeId := by
  rw [keys, keys, written, List.map_map, List.map_map]
  rfl

theorem lastKey?_written (t : Table UInt64 α) :
    t.written.lastKey? = t.lastKey?.map Archive.encodeId := by
  rw [lastKey?, keys_written, List.getLast?_map, lastKey?]

/-- The keys are identifiers, and the last one is the largest. -/
def LastIsLargest (t : Table Bytes Bytes) : Prop :=
  ∀ last, t.lastKey? = some last → ∃ largest, Archive.decodeId last = .ok largest ∧
    ∀ key ∈ t.keys, ∃ id, Archive.decodeId key = .ok id ∧ id ≤ largest

theorem lastIsLargest_written (t : Table UInt64 α) : t.written.LastIsLargest := by
  intro last hlast
  rw [lastKey?_written, Option.map_eq_some_iff] at hlast
  obtain ⟨largest, hlargest, rfl⟩ := hlast
  refine ⟨largest, Archive.decodeId_encodeId largest, fun key hkey => ?_⟩
  rw [keys_written, List.mem_map] at hkey
  obtain ⟨id, hid, rfl⟩ := hkey
  exact ⟨id, Archive.decodeId_encodeId id,
    (Std.LawfulOrderOrd.isLE_compare _ _).1 (le_lastKey hlargest hid)⟩

theorem not_contains_of_no_lastKey [Std.LawfulEqOrd κ] {ν : Type} {t : Table κ ν}
    (h : t.lastKey? = none) (key : κ) : t.contains key = false := by
  rw [lastKey?, List.getLast?_eq_none_iff] at h
  exact Bool.eq_false_iff.2 fun hkey => by simpa [h] using mem_keys.2 hkey

end Table

namespace Tables

variable (t : Tables) (s : Series)

/-- The last identifier in use. -/
def lastId? : Series → Option UInt64
  | .rentals => t.rentals.lastKey?
  | .fees => t.fees.lastKey?
  | .invoices => t.invoices.lastKey?

/-- The number of the last identifier in use, or zero. -/
def lastNumber : Nat := (t.lastId? s).elim 0 UInt64.toNat

variable {t s}

theorem uses_lastId {id : UInt64} (h : t.lastId? s = some id) : t.uses s id := by
  have mem : ∀ {α : Type} {rows : Table UInt64 α}, rows.lastKey? = some id → rows.contains id :=
    fun hlast => Table.mem_keys.1 (List.mem_of_getLast? hlast)
  cases s <;> exact mem h

theorem le_lastNumber {id : UInt64} (h : t.uses s id) : id.toNat ≤ t.lastNumber s := by
  have le : ∀ {α : Type} (rows : Table UInt64 α), rows.contains id →
      id.toNat ≤ rows.lastKey?.elim 0 UInt64.toNat := by
    intro α rows hid
    cases hlast : rows.lastKey? with
    | none =>
        rw [Table.not_contains_of_no_lastKey hlast] at hid
        cases hid
    | some last =>
        exact UInt64.le_iff_toNat_le.1
          ((Std.LawfulOrderOrd.isLE_compare _ _).1 (Table.le_lastKey hlast (Table.mem_keys.2 hid)))
  cases s <;> exact le _ h

theorem lastNumber_le {n : Nat} (h : ∀ id, t.uses s id → id.toNat ≤ n) : t.lastNumber s ≤ n := by
  rw [lastNumber]
  cases hlast : t.lastId? s with
  | none => exact Nat.zero_le n
  | some id => exact h id (uses_lastId hlast)

end Tables

/-! ## Opening -/

/-- The sequence of a series whose last identifier is given, if there is one. -/
def IdSequence.behind (last : Option UInt64) : IdSequence := last.elim (.startingAt 1) .after

theorem IdSequence.next_behind {last : Option UInt64}
    (few : last.elim 0 UInt64.toNat + 1 < UInt64.size) :
    (behind last).next = .ofNat (last.elim 0 UInt64.toNat + 1) := by
  cases last with
  | none => rfl
  | some id =>
      have hid : (id + 1).toNat = id.toNat + 1 := by
        rw [UInt64.toNat_add]
        exact Nat.mod_eq_of_lt few
      have hne : id + 1 ≠ 0 := by
        intro h
        rw [h] at hid
        exact absurd hid.symm (Nat.succ_ne_zero _)
      rw [behind, Option.elim_some, Option.elim_some, after, startingAt, if_neg hne, ← hid,
        UInt64.ofNat_toNat]

namespace Archive

theorem sequenceOf_written {α : Type} [RowText α] {a : Archive} (name : TableName)
    (rows : Table UInt64 α) (written : a.table name = rows.written) :
    a.sequenceOf name = .ok (.behind rows.lastKey?) := by
  rw [sequenceOf, written, Table.lastKey?_written]
  cases rows.lastKey? with
  | none => rfl
  | some id =>
      simp only [Option.map_some, decodeId_encodeId]
      rfl

/-- An archive to which rows were written can be opened, and its sequences go on behind the last
identifiers in use. -/
theorem sequences_ofTables (t : Tables) :
    (ofTables t).sequences = .ok ⟨.behind (t.lastId? .rentals), .behind (t.lastId? .fees),
      .behind (t.lastId? .invoices)⟩ := by
  have rentals := sequenceOf_written (a := ofTables t) .rentals t.rentals rfl
  have fees := sequenceOf_written (a := ofTables t) .fees t.fees rfl
  have invoices := sequenceOf_written (a := ofTables t) .invoices t.invoices rfl
  rw [sequences, rentals, fees, invoices]
  rfl

end Archive

/-- A shop that is opened on the tables of an archive. -/
theorem Shop.opened_archive {t : Tables} (keyed : t.Keyed)
    (few : ∀ s, t.lastNumber s + 1 < UInt64.size) {sequences : Sequences}
    (hsequences : (Archive.ofTables t).sequences = .ok sequences) (lockWait : Nat)
    (clock : Instant) :
    (Shop.opened (.archive (.ofTables t)) sequences lockWait clock).Opened .archive t
      t.lastNumber where
  store := rfl
  locks := rfl
  keyed := keyed
  next s := by
    rw [Archive.sequences_ofTables] at hsequences
    obtain rfl := Except.ok.inj hsequences
    cases s <;> exact IdSequence.next_behind (few _)
  used _ _ := Tables.le_lastNumber

/-! ## Days -/

/-- The identifier that a deed draws, and its series. -/
def Deed.drawn? : Deed → Option (Series × UInt64)
  | .did (.insertRental _) row => some (.rentals, row.id)
  | .did (.insertFee _) row => some (.fees, row.id)
  | .did (.insertInvoice _) row => some (.invoices, row.id)
  | _ => none

def Event.drawn? {ν ρ : Type} : Event ν ρ → Option (Series × UInt64)
  | .does _ deed => deed.drawn?
  | _ => none

section

variable {ν : Type} [DecidableEq ν]

/-- A day at a desk: its archive is opened, and whoever comes is served. -/
structure Day (files : Archive) (events : List (Event ν Answer)) (f : Floor ν Answer) : Prop where
  run : ∃ sequences lockWait clock, files.sequences = .ok sequences ∧
    (Floor.ofShop (.opened (.archive files) sequences lockWait clock)).Run events f
  served : ∃ tariff, ∀ e ∈ events, e.Served ⟨tariff, .archive⟩

/-- What is left after days each of which was closed when nobody was at work. -/
inductive Days : List (List (Event ν Answer)) → Archive → Prop
  | nil : Days [] .empty
  | snoc {days : List (List (Event ν Answer))} {files left : Archive}
      {events : List (Event ν Answer)} {f : Floor ν Answer} (past : Days days files)
      (day : Day files events f) (closed : ∀ v, f.sessions v = none)
      (store : f.shop.store = .archive left) : Days (days ++ [events]) left

end

/-- What a reading shows if no call fails. -/
def Shop.shows (shop : Shop) (terms : Terms) (reading : Reading) : Option Answer :=
  (Session.advance { shop with failing := [] } .empty (reading.task terms)).2.result?

theorem Shop.shows_archive {shop : Shop} {t : Tables}
    (store : shop.store = .archive (.ofTables t)) (tariff : Tariff) (reading : Reading) :
    shop.shows ⟨tariff, .archive⟩ reading = some (reading.shows t).plain := by
  have store : ({ shop with failing := [] } : Shop).store = .archive (.ofTables t) := store
  have hadvance := reading.advance_archive tariff store rfl
  rw [shows, hadvance]
  rfl

/-! ## Days in a row -/

/-- An identifier is drawn from the sequence of its series. -/
theorem Session.Step.drawn {ρ : Type} {shop shop' : Shop} {s s' : Session ρ} {deed : Deed}
    (step : Session.Step shop s deed shop' s') {series : Series} {id : UInt64}
    (h : deed.drawn? = some (series, id)) :
    deed.draws? = some series ∧ id = shop.sequences.next series := by
  cases step with
  | @act writes action next =>
      cases action
      case insertRental row => cases h; exact ⟨rfl, rfl⟩
      case insertFee row => cases h; exact ⟨rfl, rfl⟩
      case insertInvoice row => cases h; exact ⟨rfl, rfl⟩
      all_goals cases h
  | _ => cases h

namespace Floor

variable {ν ρ : Type} [DecidableEq ν] {p : Policy} {medium : Medium} {t : Tables}
  {last : Series → Nat} {f g : Floor ν ρ} {e : Event ν ρ} {events : List (Event ν ρ)}
  {s : Series} {id : UInt64}

/-- An identifier that is drawn is the one behind those that were drawn. -/
theorem Kept.drawn (h : f.Kept p medium t last) (step : f.Step e g)
    (hdrawn : e.drawn? = some (s, id)) (watched : p.watches s.table)
    (few : last s + 1 < UInt64.size) : id.toNat = last s + 1 ∧ t.uses s id = false := by
  cases step with
  | does present step =>
      obtain ⟨-, rfl⟩ := step.drawn hdrawn
      exact ⟨h.counts.toNat_next watched few, h.counts.unused_next watched few⟩
  | _ => cases hdrawn

theorem Step.draws_of_drawn (step : f.Step e g) (hdrawn : e.drawn? = some (s, id)) :
    draws [e] s = 1 := by
  cases step with
  | does present step =>
      obtain ⟨hdraws, -⟩ := step.drawn hdrawn
      simp [draws, Event.draws?, hdraws]
  | _ => cases hdrawn

/-- The identifiers that are drawn in a run are numbered one after another. -/
theorem Run.number_le (run : f.Run events g) (sound : p.Sound medium) (h : f.Kept p medium t last)
    (heeded : ∀ e ∈ events, e.Heeded p medium)
    (few : ∀ s, last s + draws events s < UInt64.size)
    (hdrawn : (s, id) ∈ events.filterMap Event.drawn?) (watched : p.watches s.table) :
    id.toNat ≤ last s + draws events s := by
  induction run with
  | nil => cases hdrawn
  | @snoc events g g' e run step ih =>
      rw [List.forall_mem_append] at heeded
      have few' := (few_of_append few).1
      rw [draws_append]
      rw [List.filterMap_append, List.mem_append] at hdrawn
      rcases hdrawn with hbefore | hnow
      · have := ih heeded.1 few' hbefore
        omega
      · have hnow : e.drawn? = some (s, id) := by simpa using hnow
        obtain ⟨t', kept, -⟩ := run.kept sound h heeded.1 few'
        have few := few s
        rw [draws_append, step.draws_of_drawn hnow] at few
        rw [step.draws_of_drawn hnow, (kept.drawn step hnow watched few).1]
        omega

end Floor

section

variable {ν : Type} [DecidableEq ν] {days : List (List (Event ν Answer))} {files : Archive}
  {events : List (Event ν Answer)} {f : Floor ν Answer}

/-- During a day everybody has in custody what fits the rows, and the identifiers that were drawn
are numbered behind the last one in use. -/
theorem Day.kept {t : Tables} (day : Day (.ofTables t) events f) (keyed : t.Keyed)
    (few : ∀ s, t.lastNumber s + draws events s + 1 < UInt64.size) :
    (∃ now, f.Kept .history .archive now fun s => t.lastNumber s + draws events s) ∧
      ∀ s id, (s, id) ∈ events.filterMap Event.drawn? →
        id.toNat ≤ t.lastNumber s + draws events s := by
  obtain ⟨⟨sequences, lockWait, clock, hsequences, run⟩, tariff, served⟩ := day
  have opened := Shop.opened_archive keyed (fun s => by have := few s; omega) hsequences lockWait
    clock
  have sound := Policy.history_sound .archive
  have heeded := fun e he => (served e he).heeded
  have few : ∀ s, t.lastNumber s + draws events s < UInt64.size := fun s =>
    Nat.lt_of_succ_lt (few s)
  obtain ⟨now, kept, -⟩ := run.kept sound (Floor.kept_ofShop opened) heeded few
  exact ⟨⟨now, kept⟩, fun s id hdrawn =>
    run.number_le sound (Floor.kept_ofShop opened) heeded few hdrawn rfl⟩

/-- However many days there were, the archive holds the rows of tables, and no identifier in them is
above the number of those that were drawn. -/
theorem Days.kept (past : Days days files)
    (few : ∀ s, draws days.flatten s < UInt64.size - 1) :
    ∃ t : Tables, files = .ofTables t ∧ t.Keyed ∧
      ∀ s id, t.uses s id → id.toNat ≤ draws days.flatten s := by
  induction past with
  | nil =>
      refine ⟨.empty, rfl, .empty, fun s id hused => ?_⟩
      rw [Tables.uses_empty] at hused
      cases hused
  | @snoc days files left events f past day closed store ih =>
      have hflatten : ∀ s, draws (days ++ [events]).flatten s =
          draws days.flatten s + draws events s := fun s => by
        rw [List.flatten_append, List.flatten_singleton, draws_append]
      simp only [hflatten] at few ⊢
      obtain ⟨t, rfl, keyed, used⟩ := ih fun s => by have := few s; omega
      have hlast : ∀ s, t.lastNumber s ≤ draws days.flatten s := fun s =>
        Tables.lastNumber_le (used s)
      obtain ⟨⟨now, kept⟩, -⟩ := day.kept keyed fun s => by have := few s; have := hlast s; omega
      have left := Store.archive.inj (store.symm.trans kept.store)
      refine ⟨now, left, kept.keyed, fun s id hused => ?_⟩
      have := kept.counts.used s id rfl hused
      have := hlast s
      omega

/-- The key of an identifier that is not in use has no row. -/
theorem Archive.get?_of_unused {t : Tables} {s : Series} {id : UInt64} (h : t.uses s id = false) :
    ((ofTables t).table s.table).get? (encodeId id) = none := by
  cases s with
  | rentals =>
      exact (t.rentals.get?_written id).trans (by rw [Tables.get?_of_unused_rental h]; rfl)
  | fees => exact (t.fees.get?_written id).trans (by rw [Tables.get?_of_unused_fee h]; rfl)
  | invoices =>
      exact (t.invoices.get?_written id).trans (by rw [Tables.get?_of_unused_invoice h]; rfl)

theorem Archive.lastIsLargest_ofTables (t : Tables) (name : TableName) :
    ((ofTables t).table name).LastIsLargest := by
  cases name with
  | items => exact t.items.lastIsLargest_written
  | rentals => exact t.rentals.lastIsLargest_written
  | fees => exact t.fees.lastIsLargest_written
  | invoices => exact t.invoices.lastIsLargest_written

/-- However many days there were, at every moment of the next one: the archive holds the rows of
tables, and its last keys are the largest. If it were closed now it could be opened again, and
every reading would show the same as now. An identifier that is drawn next is not zero, has no row
yet, and was not drawn before on the same day. -/
theorem Days.nothing_lost (past : Days days files) (day : Day files events f)
    (few : ∀ s, draws (days.flatten ++ events) s < UInt64.size - 1) :
    ∃ now t, f.shop.store = .archive now ∧ now.Holds t ∧
      (∀ name, (now.table name).LastIsLargest) ∧
      (∃ sequences, now.sequences = .ok sequences ∧ ∀ lockWait clock tariff reading,
        f.shop.shows ⟨tariff, .archive⟩ reading = some (reading.shows t).plain ∧
          (Shop.opened (.archive now) sequences lockWait clock).shows ⟨tariff, .archive⟩ reading =
            some (reading.shows t).plain) ∧
      ∀ e g s id, f.Step e g → e.drawn? = some (s, id) →
        draws (days.flatten ++ events ++ [e]) s < UInt64.size - 1 →
        id ≠ 0 ∧ (now.table s.table).get? (Archive.encodeId id) = none ∧
          (s, id) ∉ events.filterMap Event.drawn? := by
  have total : ∀ s, draws days.flatten s + draws events s < UInt64.size - 1 := fun s => by
    rw [← draws_append]
    exact few s
  obtain ⟨t, rfl, keyed, used⟩ := past.kept fun s => by have := total s; omega
  have hlast : ∀ s, t.lastNumber s ≤ draws days.flatten s := fun s =>
    Tables.lastNumber_le (used s)
  obtain ⟨⟨now, kept⟩, numbers⟩ := day.kept keyed fun s => by
    have := total s
    have := hlast s
    omega
  refine ⟨.ofTables now, now, kept.store, Archive.holds_ofTables now,
    Archive.lastIsLargest_ofTables now, ⟨_, Archive.sequences_ofTables now, ?_⟩, ?_⟩
  · intro lockWait clock tariff reading
    exact ⟨Shop.shows_archive kept.store tariff reading, Shop.shows_archive rfl tariff reading⟩
  · intro e g s id step hdrawn few'
    have hcount : t.lastNumber s + draws events s + 1 < UInt64.size := by
      rw [draws_append, draws_append, step.draws_of_drawn hdrawn] at few'
      have := hlast s
      omega
    obtain ⟨hnumber, unused⟩ := kept.drawn step hdrawn rfl hcount
    refine ⟨?_, Archive.get?_of_unused unused, fun hmem => ?_⟩
    · rintro rfl
      exact absurd hnumber.symm (Nat.succ_ne_zero _)
    · have := numbers s id hmem
      omega

end

/-- In the morning an item is registered and rented. -/
def morning : List (Move Bool Answer) :=
  servings ⟨.standard, .archive⟩
    [(false, .register (.new 1 "Heat")), (true, .call (.rent 7 1))] [(false, 8), (true, 30)]
    [false, true]

/-- In the evening another item is registered and rented. -/
def evening : List (Move Bool Answer) :=
  servings ⟨.standard, .archive⟩
    [(false, .register (.new 2 "Alien")), (true, .call (.rent 8 2))] [(false, 8), (true, 30)] []

def Floor.atDawn : Floor Bool Answer :=
  ofShop (Shop.opened (.archive .empty) .fresh 100 .epoch)

/-- What the morning leaves in the archive. -/
def leftAtNoon : Archive :=
  match (Floor.atDawn.follow morning).2.shop.store with
  | .memory _ => .empty
  | .archive files => files

/-- Both have left in the morning. -/
theorem Floor.idle_morning (v : Bool) : (Floor.atDawn.follow morning).2.sessions v = none := by
  have closed : ∀ v, ((Floor.atDawn.follow morning).2.sessions v).isNone = true := by
    decide +kernel
  exact Option.isNone_iff_eq_none.1 (closed v)

def Floor.atNoon : Floor Bool Answer :=
  ofShop (Shop.opened (.archive leftAtNoon) ⟨⟨2⟩, ⟨2⟩, ⟨1⟩⟩ 100 .epoch)

theorem Days.nothing_lost_at_night :
    let mornings := [(Floor.atDawn.follow morning).1]
    let events := (Floor.atNoon.follow evening).1
    let f := (Floor.atNoon.follow evening).2
    events.filterMap Event.drawn? = [(.rentals, 2), (.fees, 2)] ∧
      ∃ now t, f.shop.store = .archive now ∧ now.Holds t ∧
        (∀ name, (now.table name).LastIsLargest) ∧
        (∃ sequences, now.sequences = .ok sequences ∧ ∀ lockWait clock tariff reading,
          f.shop.shows ⟨tariff, .archive⟩ reading = some (reading.shows t).plain ∧
            (Shop.opened (.archive now) sequences lockWait clock).shows ⟨tariff, .archive⟩ reading =
              some (reading.shows t).plain) ∧
        ∀ e g s id, f.Step e g → e.drawn? = some (s, id) →
          draws (mornings.flatten ++ events ++ [e]) s < UInt64.size - 1 →
          id ≠ 0 ∧ (now.table s.table).get? (Archive.encodeId id) = none ∧
            (s, id) ∉ events.filterMap Event.drawn? := by
  intro mornings events f
  have dawn : Day .empty (Floor.atDawn.follow morning).1 (Floor.atDawn.follow morning).2 :=
    ⟨⟨.fresh, 100, .epoch, rfl, Floor.atDawn.run_follow morning⟩, .standard, fun e => served_follow⟩
  have medium : (Floor.atDawn.follow morning).2.shop.store.medium = .archive := by decide +kernel
  have store : (Floor.atDawn.follow morning).2.shop.store = .archive leftAtNoon := by
    rw [leftAtNoon]
    cases hstore : (Floor.atDawn.follow morning).2.shop.store with
    | memory t =>
        rw [hstore] at medium
        cases medium
    | archive files => rfl
  have sequences : leftAtNoon.sequences = .ok ⟨⟨2⟩, ⟨2⟩, ⟨1⟩⟩ := by
    have hsequences : leftAtNoon.sequences.toOption = some ⟨⟨2⟩, ⟨2⟩, ⟨1⟩⟩ := by decide +kernel
    cases h : leftAtNoon.sequences with
    | ok found =>
        rw [h] at hsequences
        exact congrArg Except.ok (Option.some.inj hsequences)
    | error e =>
        rw [h] at hsequences
        cases hsequences
  have noon : Day leftAtNoon events f :=
    ⟨⟨_, 100, .epoch, sequences, Floor.atNoon.run_follow evening⟩, .standard, fun e =>
      served_follow⟩
  refine ⟨by decide +kernel, Days.nothing_lost
    (.snoc .nil dawn Floor.idle_morning store) noon fun s => ?_⟩
  have first := draws_follow_le Floor.atDawn morning s
  have second := draws_follow_le Floor.atNoon evening s
  have few : morning.length + evening.length < UInt64.size - 1 := by decide +kernel
  have hflatten : mornings.flatten = (Floor.atDawn.follow morning).1 := List.flatten_singleton
  rw [hflatten, draws_append]
  exact Nat.lt_of_le_of_lt (Nat.add_le_add first second) few

end RentalDesk
