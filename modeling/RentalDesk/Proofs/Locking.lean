import Mathlib.Data.Set.Card
import RentalDesk.Proofs.Claims

/-!
# Locking

Row locks and what everybody claims of them, moved by single steps: somebody looks the mutex of a
row up, is granted a row, ends a wait or lets go of a row, and at any moment the locks are pruned.
A wait can end by its deadline or because whoever waits is dropped; for the locks that is the same.

Between looking a mutex up and joining its queue others can come first. The queues are therefore
put in any order at any time, so that whoever has looked a mutex up may be the next to be granted
it. What holds after every run of these steps holds in particular if queues keep their order.
-/

namespace RentalDesk

namespace RowLocks

/-- The locks after the queue of a mutex came into another order. -/
def reorder (l : RowLocks) (id : MutexId) (queue : List Nat) : RowLocks :=
  { l with mutexes := l.mutexes.insert id { l.mutex id with queue } }

theorem holder_reorder (l : RowLocks) (id other : MutexId) (queue : List Nat) :
    ((l.reorder id queue).mutex other).holder = (l.mutex other).holder := by
  rw [reorder, mutex_insert]
  split
  · next hid => rw [hid]
  · rfl

theorem queue_reorder {l : RowLocks} {id : MutexId} {queue : List Nat}
    (same : queue.Perm (l.mutex id).queue) (other : MutexId) :
    ((l.reorder id queue).mutex other).queue.Perm (l.mutex other).queue := by
  rw [reorder, mutex_insert]
  split
  · next hid => rwa [hid]
  · exact .refl _

variable {ν : Type} {l : RowLocks} {claims : ν → Claims}

theorem Serves.reorder (h : l.Serves claims) {id : MutexId} {queue : List Nat}
    (same : queue.Perm (l.mutex id).queue) : (l.reorder id queue).Serves claims :=
  { h with
    holder := fun other n => by
      rw [holder_reorder]
      exact h.holder other n
    queue := fun other n => by
      rw [(queue_reorder same other).mem_iff]
      exact h.queue other n
    queue_nodup := fun other => (queue_reorder same other).nodup_iff.2 (h.queue_nodup other) }

/-! ## Counting references -/

theorem Serves.mem_tickets_iff (h : l.Serves claims) {id : MutexId} {n : Nat} :
    n ∈ (l.mutex id).tickets ↔
      ∃ v t, t ∈ (claims v).tickets ∧ t.mutex = id ∧ t.number = n := by
  rw [Mutex.tickets, List.mem_append, Option.mem_toList, h.holder, h.queue]
  simp only [Claims.mem_tickets]
  constructor
  · rintro (⟨v, t, ht, hid⟩ | ⟨v, t, ht, hid⟩)
    · exact ⟨v, t, .inl ht, hid⟩
    · exact ⟨v, t, .inr ht, hid⟩
  · rintro ⟨v, t, ht | ht, hid⟩
    · exact .inl ⟨v, t, ht, hid⟩
    · exact .inr ⟨v, t, ht, hid⟩

/-- Nobody stands at a mutex twice. -/
theorem Serves.tickets_nodup (h : l.Serves claims) (id : MutexId) :
    (l.mutex id).tickets.Nodup := by
  rw [Mutex.tickets]
  cases hholder : (l.mutex id).holder with
  | none => exact h.queue_nodup id
  | some n =>
      refine List.nodup_cons.2 ⟨fun hn => ?_, h.queue_nodup id⟩
      obtain ⟨v, t, ht, -, htn⟩ := (h.holder id n).1 hholder
      obtain ⟨w, u, hu, -, hun⟩ := (h.queue id n).1 hn
      obtain ⟨rfl, rfl⟩ := h.number_inj v w t u (Claims.mem_tickets.2 (.inl ht))
        (Claims.mem_tickets.2 (.inr hu)) (htn.trans hun.symm)
      exact h.waiting_not_held v t hu ht

/-- The references to a mutex are that of its entry and those of the tickets for it. -/
theorem Serves.references_eq (h : l.Serves claims) (id : MutexId) :
    (l.mutex id).references =
      1 + {t : Ticket | (∃ v, t ∈ (claims v).tickets) ∧ t.mutex = id}.ncard := by
  have himage : Ticket.number '' {t | (∃ v, t ∈ (claims v).tickets) ∧ t.mutex = id} =
      {n | n ∈ (l.mutex id).tickets} := by
    ext n
    rw [Set.mem_ofPred_eq, h.mem_tickets_iff]
    constructor
    · rintro ⟨t, ⟨⟨v, ht⟩, hid⟩, hn⟩
      exact ⟨v, t, ht, hid, hn⟩
    · rintro ⟨v, t, ht, hid, hn⟩
      exact ⟨t, ⟨⟨v, ht⟩, hid⟩, hn⟩
  have hinj : Set.InjOn Ticket.number
      {t | (∃ v, t ∈ (claims v).tickets) ∧ t.mutex = id} := by
    rintro t ⟨⟨v, ht⟩, -⟩ u ⟨⟨w, hu⟩, -⟩ hn
    exact (h.number_inj v w t u ht hu hn).2
  have hcard : {n | n ∈ (l.mutex id).tickets}.ncard = (l.mutex id).tickets.length := by
    rw [← List.coe_toFinset, Set.ncard_coe_finset]
    exact List.toFinset_card_of_nodup (h.tickets_nodup id)
  rw [Mutex.references, ← hcard, ← himage, hinj.ncard_image]

/-- Pruning keeps the entries of the rows that somebody holds or waits for, and no others. -/
theorem Serves.entry_prune_iff (h : l.Serves claims) {key : RowKey} :
    (l.prune.entries.get? key).isSome ↔ ∃ v t, t ∈ (claims v).tickets ∧ t.key = key := by
  constructor
  · intro hsome
    obtain ⟨id, hid⟩ := Option.isSome_iff_exists.1 hsome
    rw [entries_prune, Option.filter_eq_some_iff, decide_eq_true_eq] at hid
    obtain ⟨hentry, hreferences⟩ := hid
    have hpos : 0 < (l.mutex id).tickets.length := by
      rw [Mutex.references] at hreferences
      omega
    obtain ⟨n, hn⟩ := List.exists_mem_of_length_pos hpos
    obtain ⟨v, t, ht, hmutex, -⟩ := h.mem_tickets_iff.1 hn
    exact ⟨v, t, ht, h.entry_inj t.key key id (hmutex ▸ h.entry v t ht) hentry⟩
  · rintro ⟨v, t, ht, rfl⟩
    rw [h.prune.entry v t ht]
    rfl

end RowLocks

/-- Row locks, and what everybody claims of them. -/
structure Locking (ν : Type) where
  locks : RowLocks
  claims : ν → Claims

namespace Locking

variable {ν : Type}

/-- Nobody has asked for a row yet. -/
def start : Locking ν := ⟨.empty, fun _ => .none⟩

variable [DecidableEq ν]

/-- One step of somebody, or of the locks. -/
inductive Step : Locking ν → Locking ν → Prop
  /-- Looks the mutex of a row up, or has it made, and waits for it. -/
  | asks {s : Locking ν} {v : ν} (key : RowKey) (ready : (s.claims v).waiting = none) :
      Step s ⟨(s.locks.request key).2, Claims.ask s.claims v (s.locks.request key).1⟩
  | takes {s : Locking ν} {v : ν} {t : Ticket} {locks : RowLocks}
      (waits : (s.claims v).waiting = some t) (granted : s.locks.grant? t = some locks) :
      Step s ⟨locks, Claims.take s.claims v t⟩
  /-- Ends a wait without the row: it has lasted too long, or whoever waits is dropped. -/
  | givesUp {s : Locking ν} {v : ν} {t : Ticket} (waits : (s.claims v).waiting = some t) :
      Step s ⟨s.locks.giveBack t, Claims.giveBack s.claims v [t]⟩
  | letsGo {s : Locking ν} {v : ν} {t : Ticket} (holds : t ∈ (s.claims v).held) :
      Step s ⟨s.locks.giveBack t, Claims.giveBack s.claims v [t]⟩
  /-- The queue of a mutex comes into another order. -/
  | reorders {s : Locking ν} {id : MutexId} {queue : List Nat}
      (same : queue.Perm (s.locks.mutex id).queue) : Step s ⟨s.locks.reorder id queue, s.claims⟩
  | prunes {s : Locking ν} : Step s ⟨s.locks.prune, s.claims⟩

/-- Any number of steps. -/
inductive Run : Locking ν → Locking ν → Prop
  | stay {s : Locking ν} : Run s s
  | step {s s' s'' : Locking ν} (run : Run s s') (step : Step s' s'') : Run s s''

/-- What every step keeps. -/
structure Steady (s : Locking ν) : Prop where
  serves : s.locks.Serves s.claims
  held_nodup : ∀ v, (s.claims v).held.Nodup

variable {s s' : Locking ν}

omit [DecidableEq ν] in
theorem Steady.start : Steady (start : Locking ν) := ⟨.empty, fun _ => List.nodup_nil⟩

theorem Steady.giveBack (h : s.Steady) {v : ν} {t : Ticket} (ht : t ∈ (s.claims v).tickets) :
    Steady ⟨s.locks.giveBack t, Claims.giveBack s.claims v [t]⟩ where
  serves := h.serves.giveBackAll v [t] fun u hu => List.mem_singleton.1 hu ▸ ht
  held_nodup w := by
    by_cases hw : w = v
    · subst hw
      simp only [Claims.giveBack, Function.update_self]
      exact (h.held_nodup w).filter _
    · simp only [Claims.giveBack, Function.update_of_ne hw]
      exact h.held_nodup w

theorem Step.steady (step : s.Step s') (h : s.Steady) : s'.Steady := by
  cases step with
  | asks key ready =>
      refine ⟨h.serves.request ready key, fun w => ?_⟩
      simp only [Claims.held_ask]
      exact h.held_nodup w
  | @takes v t locks waits granted =>
      refine ⟨h.serves.grant waits granted, fun w => ?_⟩
      by_cases hw : w = v
      · subst hw
        simp only [Claims.take, Function.update_self]
        have hnew := (h.held_nodup w).concat (h.serves.waiting_not_held w t waits)
        rwa [List.concat_eq_append] at hnew
      · simp only [Claims.take, Function.update_of_ne hw]
        exact h.held_nodup w
  | givesUp waits => exact h.giveBack (Claims.mem_tickets.2 (.inr waits))
  | letsGo holds => exact h.giveBack (Claims.mem_tickets.2 (.inl holds))
  | reorders same => exact ⟨h.serves.reorder same, h.held_nodup⟩
  | prunes => exact ⟨h.serves.prune, h.held_nodup⟩

theorem Run.steady (run : s.Run s') (h : s.Steady) : s'.Steady := by
  induction run with
  | stay => exact h
  | step _ step ih => exact step.steady ih

/-- The row locks exclude each other, and forget no row that is in use. -/
structure Exclusive (s : Locking ν) : Prop where
  /-- A row has one guard at most. -/
  one_guard : ∀ v w t u, t ∈ (s.claims v).held → u ∈ (s.claims w).held → t.key = u.key →
    v = w ∧ t = u
  guards_nodup : ∀ v, (s.claims v).held.Nodup
  /-- Whoever holds a row or waits for it does so at the mutex that the row has at present. -/
  entry : ∀ v t, t ∈ (s.claims v).tickets → s.locks.entries.get? t.key = some t.mutex
  holder : ∀ v t, t ∈ (s.claims v).held → (s.locks.mutex t.mutex).holder = some t.number
  queue : ∀ v t, (s.claims v).waiting = some t → t.number ∈ (s.locks.mutex t.mutex).queue
  /-- The references to a mutex are that of its entry and one for each ticket. -/
  references : ∀ id, (s.locks.mutex id).references =
    1 + {t : Ticket | (∃ v, t ∈ (s.claims v).tickets) ∧ t.mutex = id}.ncard
  /-- Pruning leaves the rows that somebody holds or waits for, and no others. -/
  pruned : ∀ key, (s.locks.prune.entries.get? key).isSome ↔
    ∃ v t, t ∈ (s.claims v).tickets ∧ t.key = key

/-- Whoever asks, waits, is granted a row, gives up or lets go in whatever order, and whenever the
locks are pruned: rows are held by one at a time, and no row is forgotten that is in use. -/
theorem Run.exclusive (run : (start : Locking ν).Run s) : s.Exclusive where
  one_guard _ _ _ _ := (run.steady .start).serves.held_inj
  guards_nodup := (run.steady .start).held_nodup
  entry := (run.steady .start).serves.entry
  holder v t ht := ((run.steady .start).serves.holder _ _).2 ⟨v, t, ht, rfl, rfl⟩
  queue v t ht := ((run.steady .start).serves.queue _ _).2 ⟨v, t, ht, rfl, rfl⟩
  references := (run.steady .start).serves.references_eq
  pruned _ := (run.steady .start).serves.entry_prune_iff

/-- The second of two who ask for an item is granted it after the first one has let go of it, on
the mutex that was made for the first one, although the locks are pruned in between. -/
theorem Run.exclusive_handover : ∃ s : Locking Bool, start.Run s ∧
    (s.claims true).held = [⟨.item 1, 0, 1⟩] ∧ s.Exclusive := by
  have asked := (Run.stay (s := (start : Locking Bool))).step (.asks (v := false) (.item 1) rfl)
  have pruned := asked.step .prunes
  have queued := pruned.step (.asks (v := true) (.item 1) rfl)
  have taken := queued.step (.takes (v := false) rfl (Option.some_get (by decide)).symm)
  have kept := taken.step .prunes
  have free := kept.step (.letsGo (v := false) (t := ⟨.item 1, 0, 0⟩) (by decide))
  have waited := free.step .prunes
  have handed := waited.step (.takes (v := true) rfl (Option.some_get (by decide)).symm)
  exact ⟨_, handed, by decide, Run.exclusive handed⟩

end Locking

end RentalDesk
