import RentalDesk.Proofs.Chronicle
import RentalDesk.Proofs.Dialogue
import RentalDesk.Proofs.Records

/-!
# Rights to write

A transaction has the right to write a row from the moment at which the lock of the row was granted
to it, or at which it has inserted the row. With the right goes what was kept under the row's key at
that moment. A row can be locked before there is one; if somebody else then brings the row in, by
drawing its identifier, or in memory by registering the item, the right is to a row that its owner
has never seen. Nobody who keeps clear of such rights overwrites the work of others, and no two of
them can write the same row at once.
-/

namespace RentalDesk

open Script

/-- The right of a transaction to write a row: what was kept under the row's key when the right was
obtained, and whether it was obtained by inserting the row. -/
structure Right where
  record : Option Record
  inserted : Bool
deriving DecidableEq

/-- Everybody's rights. -/
abbrev Rights (ν : Type) := ν → RowKey → Option Right

/-- The right is to a row that was inserted, or that was there when it was locked. Items of an
archive may be locked before they are there, for nobody registers them meanwhile. -/
def Right.Sound (right : Right) (medium : Medium) (key : RowKey) : Prop :=
  right.inserted = true ∨ right.record.isSome = true ∨ medium = .archive ∧ key.series? = none

/-- The identifier of the row lies behind the one that is drawn next. -/
def Sequences.Passed (s : Sequences) (key : RowKey) : Prop :=
  ∀ series, key.series? = some series → key.id.toNat < (s.next series).toNat

/-- The row that is staged. -/
def Deed.stages? : Deed → Option RowKey
  | .did (.updateItem item) (.ok _) => some (.item item.id)
  | .did (.updateRental rental) (.ok _) => some (.rental rental.id)
  | .did (.updateFee fee) (.ok _) => some (.fee fee.id)
  | _ => none

namespace Rights

variable {ν ρ : Type} [DecidableEq ν]

def none : Rights ν := fun _ _ => .none

def gain (r : Rights ν) (v : ν) (key : RowKey) (right : Right) : Rights ν :=
  Function.update r v (Function.update (r v) key (some right))

def lose (r : Rights ν) (v : ν) : Rights ν := Function.update r v fun _ => .none

/-- The rights after an event, given the store before it. They end when the rows are committed, or
when the transaction is given up. -/
def after (r : Rights ν) (store : Store) : Event ν ρ → Rights ν
  | .does v (.took ticket) => r.gain v ticket.key ⟨store.record? ticket.key, false⟩
  | .does v (.did (.insertRental _) row) =>
    r.gain v (.rental row.id) ⟨store.record? (.rental row.id), true⟩
  | .does v (.did (.insertFee _) row) => r.gain v (.fee row.id) ⟨store.record? (.fee row.id), true⟩
  | .does v (.did .apply _) | .does v (.did (.placeItem _) _) => r.lose v
  | .does v (.did .release _) | .does v (.did .discard _) | .leaves v => r.lose v
  | _ => r

theorem gain_self (r : Rights ν) (v : ν) (key other : RowKey) (right : Right) :
    r.gain v key right v other = if other = key then some right else r v other := by
  rw [gain, Function.update_self, Function.update_apply]

theorem gain_of_ne (r : Rights ν) {v w : ν} (h : w ≠ v) (key : RowKey) (right : Right) :
    r.gain v key right w = r w := Function.update_of_ne h ..

theorem lose_self (r : Rights ν) (v : ν) (key : RowKey) : r.lose v v key = .none := by
  rw [lose, Function.update_self]

theorem lose_of_ne (r : Rights ν) {v w : ν} (h : w ≠ v) : r.lose v w = r w :=
  Function.update_of_ne h ..

end Rights

variable {ν : Type}

/-- Everybody comes to the store as a client or to register an item. -/
def Event.Joins (medium : Medium) : Event ν Answer → Prop
  | .comes _ task => ∃ (comer : Comer) (tariff : Tariff), task = comer.task ⟨tariff, medium⟩
  | _ => True

/-- Everybody comes as a client or to register an item, no series of identifiers goes round, and
nobody stages a row with a right that is not sound. -/
def Event.Heeds (medium : Medium) (f : Floor ν Answer) (r : Rights ν) : Event ν Answer → Prop
  | .does v deed =>
    (∀ series, deed.draws? = some series →
      (f.shop.sequences.next series).toNat + 1 < UInt64.size) ∧
    ∀ key right, deed.stages? = some key → r v key = some right → right.Sound medium key
  | e => e.Joins medium

theorem Event.Heeds.of_quiet {medium : Medium} {f : Floor ν Answer} {r : Rights ν} {v : ν}
    {deed : Deed} (draws : deed.draws? = none) (stages : deed.stages? = none) :
    (Event.does v deed).Heeds medium f r :=
  ⟨fun series h => (by cases draws.symm.trans h), fun key right h => by cases stages.symm.trans h⟩

namespace Floor

variable [DecidableEq ν]

/-- The runs in which every event is as allowed, with everybody's rights in the end. -/
inductive Watched (allowed : Floor ν Answer → Rights ν → Event ν Answer → Prop)
    (start : Floor ν Answer) : Floor ν Answer → Rights ν → Prop
  | nil : Watched allowed start start .none
  | snoc {f g : Floor ν Answer} {r : Rights ν} {e : Event ν Answer}
      (run : Watched allowed start f r) (step : f.Step e g) (allows : allowed f r e) :
      Watched allowed start g (r.after f.shop.store e)

/-- A floor on which nobody is at work, at a store in which the identifiers in use are behind those
that are drawn next. -/
structure Vacant (medium : Medium) (f : Floor ν Answer) : Prop where
  store : f.shop.store.medium = medium
  empty : ∀ v, f.sessions v = none
  locks : f.shop.locks.Serves f.claims
  behind : ∀ key, (f.shop.store.record? key).isSome → f.shop.sequences.Passed key

/-- No work of others is overwritten. -/
structure Undisputed (medium : Medium) (f : Floor ν Answer) (r : Rights ν) : Prop where
  /-- A commit has the right to every row that it writes, and finds it as it was when the right was
  obtained. -/
  commits : ∀ v s g key row, f.sessions v = some s → f.Step (.does v (.did .apply ())) g →
    s.writes.staged.row? key = some row →
      ∃ right, r v key = some right ∧ f.shop.store.record? key = right.record
  /-- No two can write the same row. -/
  apart : ∀ v w key right right', r v key = some right → r w key = some right' →
    right.Sound medium key → right'.Sound medium key → v = w
  /-- The row of an item that is put into an archive is locked by whoever puts it there. -/
  places : ∀ v w s g item, f.Step (.does v (.did (.placeItem item) ())) g →
    f.sessions w = some s → s.writes.holds (.item item.id) → v = w

end Floor

/-! ## What a right comes to -/

/-- What holds of a right of a transaction with the given writes. -/
structure Right.Stands (right : Right) (medium : Medium) (shop : Shop) (w : WriteSet)
    (key : RowKey) : Prop where
  locked : right.inserted = false → w.locks key
  inserted : right.inserted = true → key ∈ w.inserted
  fresh : right.inserted = true → right.record = none ∧ shop.sequences.Passed key
  kept : right.Sound medium key → shop.store.record? key = right.record

theorem Right.Stands.holds {right : Right} {medium : Medium} {shop : Shop} {w : WriteSet}
    {key : RowKey} (h : right.Stands medium shop w key) : w.holds key := by
  cases hinserted : right.inserted with
  | true => exact WriteSet.holds_iff.2 (.inr (h.inserted hinserted))
  | false => exact WriteSet.holds_iff.2 (.inl (h.locked hinserted))

/-- A right stays if its owner keeps what he holds and what is kept under the key stays. -/
theorem Right.Stands.mono {right : Right} {medium : Medium} {shop shop' : Shop} {w w' : WriteSet}
    {key : RowKey} (h : right.Stands medium shop w key)
    (passed : shop.sequences.Passed key → shop'.sequences.Passed key)
    (still : right.Sound medium key → shop'.store.record? key = shop.store.record? key)
    (locked : w.locks key → w'.locks key) (inserted : key ∈ w.inserted → key ∈ w'.inserted) :
    right.Stands medium shop' w' key where
  locked hlocked := locked (h.locked hlocked)
  inserted hinserted := inserted (h.inserted hinserted)
  fresh hinserted := (h.fresh hinserted).imp_right passed
  kept sound := (still sound).trans (h.kept sound)

/-- What somebody at work has: the row that was granted last, rights to all rows that he
holds, and sound ones to all rows that he has staged. -/
structure WriteSet.Entitled (w : WriteSet) (medium : Medium) (last : Option RowKey)
    (rights : RowKey → Option Right) : Prop where
  last : ∀ key, last = some key → w.holds key
  holds : ∀ key, w.holds key → ∃ right, rights key = some right
  staged : ∀ key row, w.staged.row? key = some row →
    ∃ right, rights key = some right ∧ right.Sound medium key

theorem WriteSet.Entitled.empty {medium : Medium} :
    WriteSet.empty.Entitled medium none fun _ => none where
  last _ := nofun
  holds key hholds := by cases hholds
  staged key row hrow := by
    rw [show WriteSet.empty.staged = .empty from rfl, Tables.row?_empty] at hrow
    cases hrow

/-- A session that keeps to the discipline, with what it has while it is at work. -/
structure Session.Keeps (s : Session Answer) (medium : Medium) (rights : RowKey → Option Right)
    (phase : Phase) : Prop where
  follows : s.Follows (Phase.discipline medium) phase fun _ _ => True
  covered : s.writes.Covered
  waits : ∀ ticket deadline next, s.stage = .waiting ticket deadline next →
    ¬ s.writes.holds ticket.key
  entitled : ∀ last, phase = .working last → s.writes.Entitled medium last rights

/-- A session that waits for nothing keeps to the discipline if its task does. -/
theorem Session.Keeps.running {writes : WriteSet} {task : Task Answer} {medium : Medium}
    {rights : RowKey → Option Right} {phase : Phase}
    (follows : Session.Follows (Phase.discipline medium) ⟨writes, .running task⟩ phase
      fun _ _ => True)
    (covered : writes.Covered)
    (entitled : ∀ last, phase = .working last → writes.Entitled medium last rights) :
    Session.Keeps ⟨writes, .running task⟩ medium rights phase where
  follows := follows
  covered := covered
  waits ticket deadline next hstage := by cases hstage
  entitled := entitled

/-- What holds in every run in which the rights are heeded. -/
structure Floor.Guarded (medium : Medium) (f : Floor ν Answer) (r : Rights ν) : Prop where
  store : f.shop.store.medium = medium
  locks : f.shop.locks.Serves f.claims
  behind : ∀ key, (f.shop.store.record? key).isSome → f.shop.sequences.Passed key
  sessions : ∀ v s, f.sessions v = some s → ∃ phase, s.Keeps medium (r v) phase
  rights : ∀ v key right, r v key = some right →
    ∃ s, f.sessions v = some s ∧ right.Stands medium f.shop s.writes key
  apart : ∀ v w key right right', r v key = some right → r w key = some right' →
    right.Sound medium key → right'.Sound medium key → v = w

/-! ## One step -/

namespace Shop

/-- No action but a draw moves a sequence, and no draw goes round. -/
theorem passed_perform {shop : Shop} {writes : WriteSet} {action : Action}
    (draws : ∀ series, (Deed.did action (shop.perform writes action).1).draws? = some series →
      (shop.sequences.next series).toNat + 1 < UInt64.size) {key : RowKey}
    (h : shop.sequences.Passed key) : (shop.perform writes action).2.1.sequences.Passed key := by
  intro series hseries
  have hlt := h series hseries
  rw [perform_next]
  split
  · next hdraws =>
      have hnext := draws series hdraws
      rw [UInt64.toNat_add, UInt64.toNat_one]
      simp only [UInt64.size] at hnext
      omega
  · exact hlt

end Shop

namespace Floor.Guarded

variable {medium : Medium} {f g : Floor ν Answer} {r r' : Rights ν} {v : ν} {shop : Shop}
  {s s' : Session Answer}

/-- Nothing is kept under an identifier that is drawn now. -/
theorem record?_next (h : f.Guarded medium r) {key : RowKey} {series : Series}
    (hseries : key.series? = some series) (hid : key.id = f.shop.sequences.next series) :
    f.shop.store.record? key = none := by
  refine Option.not_isSome_iff_eq_none.1 fun hsome => ?_
  have hlt := h.behind key hsome series hseries
  rw [hid] at hlt
  exact Nat.lt_irrefl _ hlt

/-- The rows that somebody at work has staged are those of nobody else, so that a commit changes no
row that another one has a sound right to. -/
theorem record?_apply (h : f.Guarded medium r) {writes : WriteSet} {last : Option RowKey}
    (entitled : writes.Entitled medium last (r v)) {w : ν} {key : RowKey} {right : Right}
    (hw : w ≠ v) (hright : r w key = some right) (sound : right.Sound medium key) :
    (f.shop.store.apply writes.staged).record? key = f.shop.store.record? key := by
  cases hrow : writes.staged.row? key with
  | none => exact Store.record?_apply_of_unstaged hrow f.shop.store
  | some row =>
      obtain ⟨right', hright', sound'⟩ := entitled.staged key row hrow
      exact absurd (h.apart w v key right right' hright hright' sound sound') hw

/-- After a commit the identifiers in use are behind those that are drawn next. -/
theorem behind_apply (h : f.Guarded medium r) {writes : WriteSet} {last : Option RowKey}
    (entitled : writes.Entitled medium last (r v)) (key : RowKey)
    (hkey : ((f.shop.store.apply writes.staged).record? key).isSome) :
    f.shop.sequences.Passed key := by
  cases hrow : writes.staged.row? key with
  | none => exact h.behind key (Store.record?_apply_of_unstaged hrow f.shop.store ▸ hkey)
  | some row =>
      obtain ⟨right, hright, sound⟩ := entitled.staged key row hrow
      obtain ⟨t, -, stands⟩ := h.rights v key right hright
      rcases sound with hinserted | hrecord | ⟨-, hnone⟩
      · exact (stands.fresh hinserted).2
      · exact h.behind key (by rwa [stands.kept (.inr (.inl hrecord))])
      · intro series hseries
        cases hseries.symm.trans hnone

/-- A row is locked by one session at most. -/
theorem eq_of_locks (h : f.Guarded medium r) {w : ν} (hv : f.sessions v = some s)
    (hw : f.sessions w = some s') {key : RowKey} (locks : s.writes.locks key)
    (locks' : s'.writes.locks key) : v = w := by
  obtain ⟨t, ht, hkey⟩ := WriteSet.locks_iff.1 locks
  obtain ⟨u, hu, hkey'⟩ := WriteSet.locks_iff.1 locks'
  refine h.locks.held_exclusive (t := t) (u := u) ?_ ?_ (hkey.trans hkey'.symm)
  · rwa [claims_of_session hv]
  · rwa [claims_of_session hw]

/-- Items are never inserted, so whoever holds one has its lock. -/
theorem locks_item (h : f.Guarded medium r) (present : f.sessions v = some s) {id : ItemId}
    (holds : s.writes.holds (.item id)) : s.writes.locks (.item id) := by
  obtain ⟨phase, keeps⟩ := h.sessions v s present
  exact (WriteSet.holds_iff.1 holds).resolve_right (keeps.covered.inserted id)

/-- In memory nobody has a sound right to an item that is not there. -/
theorem not_sound_of_absent (h : f.Guarded .memory r) {id : ItemId} {right : Right}
    (hright : r v (.item id) = some right) (absent : f.shop.store.record? (.item id) = none) :
    ¬ right.Sound .memory (.item id) := by
  obtain ⟨s, present, stands⟩ := h.rights v _ right hright
  obtain ⟨phase, keeps⟩ := h.sessions v s present
  intro sound
  have hkept := stands.kept sound
  rcases sound with hinserted | hrecord | ⟨hmedium, -⟩
  · exact keeps.covered.inserted id (stands.inserted hinserted)
  · rw [← hkept, absent] at hrecord
    cases hrecord
  · cases hmedium

variable [DecidableEq ν]

/-- A step of somebody leaves the rights of others as they are if no row that they have a sound
right to is written, and if he gets no sound right to such a row. -/
theorem put (h : f.Guarded medium r) (store : shop.store.medium = medium)
    (locks : shop.locks.Serves (Function.update f.claims v s'.claims))
    (behind : ∀ key, (shop.store.record? key).isSome → shop.sequences.Passed key)
    (passed : ∀ key, f.shop.sequences.Passed key → shop.sequences.Passed key)
    (others : ∀ w, w ≠ v → r' w = r w)
    (still : ∀ w key right, w ≠ v → r w key = some right → right.Sound medium key →
      shop.store.record? key = f.shop.store.record? key)
    (session : ∃ phase, s'.Keeps medium (r' v) phase)
    (own : ∀ key right, r' v key = some right → right.Stands medium shop s'.writes key)
    (apart : ∀ w key right right', w ≠ v → r' v key = some right → r w key = some right' →
      right.Sound medium key → right'.Sound medium key → False) :
    (f.put v shop s').Guarded medium r' where
  store := store
  locks := by rwa [claims_put]
  behind := behind
  sessions w t present := by
    by_cases hw : w = v
    · subst hw
      obtain rfl := Option.some.inj ((put_sessions_self ..).symm.trans present)
      exact session
    · rw [put_sessions_of_ne f hw] at present
      rw [others w hw]
      exact h.sessions w t present
  rights w key right hright := by
    by_cases hw : w = v
    · subst hw
      exact ⟨s', put_sessions_self .., own key right hright⟩
    · rw [others w hw] at hright
      obtain ⟨t, present, stands⟩ := h.rights w key right hright
      exact ⟨t, (put_sessions_of_ne f hw ..).trans present,
        stands.mono (passed key) (still w key right hw hright) id id⟩
  apart w x key right right' hw hx sound sound' := by
    by_cases hwv : w = v <;> by_cases hxv : x = v
    · rw [hwv, hxv]
    · subst hwv
      rw [others x hxv] at hx
      exact (apart x key right right' hxv hw hx sound sound').elim
    · subst hxv
      rw [others w hwv] at hw
      exact (apart w key right' right hwv hx hw sound' sound).elim
    · rw [others w hwv] at hw
      rw [others x hxv] at hx
      exact h.apart w x key right right' hw hx sound sound'

/-- A step that writes no row and gives and takes no right. -/
theorem still (h : f.Guarded medium r) (present : f.sessions v = some s)
    (store : shop.store = f.shop.store)
    (locks : shop.locks.Serves (Function.update f.claims v s'.claims))
    (passed : ∀ key, f.shop.sequences.Passed key → shop.sequences.Passed key)
    (session : ∃ phase, s'.Keeps medium (r v) phase)
    (locked : ∀ key, s.writes.locks key → s'.writes.locks key)
    (inserted : ∀ key ∈ s.writes.inserted, key ∈ s'.writes.inserted) :
    (f.put v shop s').Guarded medium r := by
  refine h.put (store ▸ h.store) locks ?_ passed (fun _ _ => rfl) ?_ session ?_ ?_
  · exact fun key hkey => passed key (h.behind key (store ▸ hkey))
  · exact fun _ key _ _ _ _ => by rw [store]
  · intro key right hright
    obtain ⟨t, ht, stands⟩ := h.rights v key right hright
    obtain rfl := Option.some.inj (present.symm.trans ht)
    exact stands.mono (passed key) (fun _ => by rw [store]) (locked key) (inserted key)
  · exact fun w key right right' hw hv hw' sound sound' =>
      hw (h.apart v w key right right' hv hw' sound sound').symm

/-- A step by which somebody loses his rights. -/
theorem lose (h : f.Guarded medium r) (store : shop.store.medium = medium)
    (locks : shop.locks.Serves (Function.update f.claims v s'.claims))
    (behind : ∀ key, (shop.store.record? key).isSome → shop.sequences.Passed key)
    (passed : ∀ key, f.shop.sequences.Passed key → shop.sequences.Passed key)
    (still : ∀ w key right, w ≠ v → r w key = some right → right.Sound medium key →
      shop.store.record? key = f.shop.store.record? key)
    (session : ∃ phase, s'.Keeps medium (fun _ => none) phase) :
    (f.put v shop s').Guarded medium (r.lose v) := by
  have hlose : r.lose v v = fun _ => none := funext fun key => r.lose_self v key
  refine h.put store locks behind passed (fun w hw => r.lose_of_ne hw) still ?_ ?_ ?_
  · rwa [hlose]
  · intro key right hright
    rw [Rights.lose_self] at hright
    cases hright
  · intro w key right right' hw hright
    rw [Rights.lose_self] at hright
    cases hright

/-- A step by which somebody obtains the right to a row. -/
theorem gain (h : f.Guarded medium r) {key : RowKey} {right : Right}
    (present : f.sessions v = some s) (store : shop.store = f.shop.store)
    (locks : shop.locks.Serves (Function.update f.claims v s'.claims))
    (passed : ∀ key, f.shop.sequences.Passed key → shop.sequences.Passed key)
    (session : ∃ phase, s'.Keeps medium (r.gain v key right v) phase)
    (locked : ∀ key, s.writes.locks key → s'.writes.locks key)
    (inserted : ∀ key ∈ s.writes.inserted, key ∈ s'.writes.inserted)
    (stands : right.Stands medium shop s'.writes key)
    (apart : ∀ w right', w ≠ v → r w key = some right' → right.Sound medium key →
      right'.Sound medium key → False) :
    (f.put v shop s').Guarded medium (r.gain v key right) := by
  refine h.put (store ▸ h.store) locks ?_ passed (fun w hw => r.gain_of_ne hw ..) ?_ session ?_ ?_
  · exact fun key hkey => passed key (h.behind key (store ▸ hkey))
  · exact fun _ key _ _ _ _ => by rw [store]
  · intro other right' hright
    rw [Rights.gain_self] at hright
    split at hright
    · next hkey =>
        obtain rfl := Option.some.inj hright
        exact hkey ▸ stands
    · obtain ⟨t, ht, stands'⟩ := h.rights v other right' hright
      obtain rfl := Option.some.inj (present.symm.trans ht)
      exact stands'.mono (passed other) (fun _ => by rw [store]) (locked other) (inserted other)
  · intro w other right' right'' hw hright hother sound sound'
    rw [Rights.gain_self] at hright
    split at hright
    · next hkey =>
        obtain rfl := Option.some.inj hright
        subst hkey
        exact apart w right'' hw hother sound sound'
    · exact hw (h.apart v w other right' right'' hright hother sound sound').symm

end Floor.Guarded

end RentalDesk
