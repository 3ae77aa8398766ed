import Mathlib.Logic.Function.Basic
import RentalDesk.Proofs.Lookup
import RentalDesk.RowLocks

/-!
# Claims to rows

A party claims rows by the tickets that it holds and by the ticket that it waits with. The row
locks serve a family of claims if every ticket stands at the mutex that its row has at present, in
front of it or in its queue, and if nobody else stands there. Asking for a row, being granted it,
giving it back and pruning keep the locks and the claims in step, and two parties that are served
never hold the same row.
-/

namespace RentalDesk

namespace RowLocks

variable (l : RowLocks)

/-! ## The mutexes after each operation -/

theorem mutex_insert (id other : MutexId) (m : Mutex) :
    ({ l with mutexes := l.mutexes.insert id m } : RowLocks).mutex other =
      if other = id then m else l.mutex other := by
  by_cases h : other = id <;> simp [mutex, h]

theorem mutex_giveBack (t : Ticket) (id : MutexId) :
    (l.giveBack t).mutex id =
      if id = t.mutex then (l.mutex t.mutex).leave t.number else l.mutex id :=
  l.mutex_insert _ _ _

theorem holder_giveBack {t : Ticket} {id : MutexId} {n : Nat} :
    ((l.giveBack t).mutex id).holder = some n ↔
      (l.mutex id).holder = some n ∧ (t.mutex = id → t.number ≠ n) := by
  rw [mutex_giveBack]
  by_cases h : id = t.mutex
  · subst h
    simp [Mutex.leave, Option.filter_eq_some_iff, ne_comm]
  · simp [h, Ne.symm h]

theorem mem_queue_giveBack {t : Ticket} {id : MutexId} {n : Nat} :
    n ∈ ((l.giveBack t).mutex id).queue ↔
      n ∈ (l.mutex id).queue ∧ (t.mutex = id → t.number ≠ n) := by
  rw [mutex_giveBack]
  by_cases h : id = t.mutex
  · subst h
    simp [Mutex.leave, ne_comm]
  · simp [h, Ne.symm h]

@[simp] theorem giveBackAll_nil : l.giveBackAll [] = l := rfl

theorem giveBackAll_cons (t : Ticket) (ts : List Ticket) :
    l.giveBackAll (t :: ts) = (l.giveBack t).giveBackAll ts := rfl

theorem holder_giveBackAll {ts : List Ticket} {id : MutexId} {n : Nat} :
    ((l.giveBackAll ts).mutex id).holder = some n ↔
      (l.mutex id).holder = some n ∧ ∀ t ∈ ts, t.mutex = id → t.number ≠ n := by
  induction ts generalizing l with
  | nil => simp
  | cons t ts ih =>
      rw [giveBackAll_cons, ih, holder_giveBack, List.forall_mem_cons, and_assoc]

theorem mem_queue_giveBackAll {ts : List Ticket} {id : MutexId} {n : Nat} :
    n ∈ ((l.giveBackAll ts).mutex id).queue ↔
      n ∈ (l.mutex id).queue ∧ ∀ t ∈ ts, t.mutex = id → t.number ≠ n := by
  induction ts generalizing l with
  | nil => simp
  | cons t ts ih =>
      rw [giveBackAll_cons, ih, mem_queue_giveBack, List.forall_mem_cons, and_assoc]

theorem queue_nodup_giveBackAll {ts : List Ticket} {id : MutexId}
    (h : (l.mutex id).queue.Nodup) : ((l.giveBackAll ts).mutex id).queue.Nodup := by
  induction ts generalizing l with
  | nil => exact h
  | cons t ts ih =>
      rw [giveBackAll_cons]
      refine ih _ ?_
      rw [mutex_giveBack]
      split
      · next hid => exact (hid ▸ h).filter _
      · exact h

@[simp] theorem entries_giveBackAll (ts : List Ticket) :
    (l.giveBackAll ts).entries = l.entries := by
  induction ts generalizing l with
  | nil => rfl
  | cons t ts ih => exact ih (l.giveBack t)

@[simp] theorem nextTicket_giveBackAll (ts : List Ticket) :
    (l.giveBackAll ts).nextTicket = l.nextTicket := by
  induction ts generalizing l with
  | nil => rfl
  | cons t ts ih => exact ih (l.giveBack t)

@[simp] theorem nextMutex_giveBackAll (ts : List Ticket) :
    (l.giveBackAll ts).nextMutex = l.nextMutex := by
  induction ts generalizing l with
  | nil => rfl
  | cons t ts ih => exact ih (l.giveBack t)

/-- A mutex without tickets is forgotten by pruning, and a forgotten one counts as idle. -/
@[simp] theorem mutex_prune (id : MutexId) : l.prune.mutex id = l.mutex id := by
  simp only [mutex, prune, Table.get?_filter]
  cases l.mutexes.get? id with
  | none => rfl
  | some m =>
      obtain ⟨holder, queue⟩ := m
      cases holder <;> cases queue <;>
        simp [Mutex.references, Mutex.tickets, Mutex.idle, Option.filter]

theorem entries_prune (key : RowKey) :
    l.prune.entries.get? key =
      (l.entries.get? key).filter fun id => decide (1 < (l.mutex id).references) :=
  Table.get?_filter _ _ _

theorem references_of_holder {m : Mutex} {n : Nat} (h : m.holder = some n) : 1 < m.references := by
  simp [Mutex.references, Mutex.tickets, h]

theorem references_of_mem_queue {m : Mutex} {n : Nat} (h : n ∈ m.queue) : 1 < m.references := by
  have : 0 < m.queue.length := List.length_pos_of_mem h
  simp only [Mutex.references, Mutex.tickets, List.length_append]
  omega

theorem grant?_eq_some {l l' : RowLocks} {t : Ticket} (h : l.grant? t = some l') :
    ∃ rest, l.mutex t.mutex = ⟨none, t.number :: rest⟩ ∧
      l' = { l with mutexes := l.mutexes.insert t.mutex ⟨some t.number, rest⟩ } := by
  rw [grant?, Option.map_eq_some_iff] at h
  obtain ⟨m, hm, rfl⟩ := h
  cases hmutex : l.mutex t.mutex with
  | mk holder queue =>
      cases holder with
      | some n => simp [hmutex, Mutex.grant?] at hm
      | none =>
          cases queue with
          | nil => simp [hmutex, Mutex.grant?] at hm
          | cons first rest =>
              by_cases hfirst : first = t.number
              · simp only [hmutex, Mutex.grant?, hfirst, ↓reduceIte, Option.some.injEq] at hm
                exact ⟨rest, by rw [hfirst], by rw [← hm]⟩
              · simp [hmutex, Mutex.grant?, hfirst] at hm

theorem request_of_entry {l : RowLocks} {key : RowKey} {id : MutexId}
    (h : l.entries.get? key = some id) :
    l.request key = (⟨key, id, l.nextTicket⟩,
      { l with
        mutexes := l.mutexes.insert id ((l.mutex id).enqueue l.nextTicket)
        nextTicket := l.nextTicket + 1 }) := by
  simp [request, entry, h]

theorem request_of_no_entry {l : RowLocks} {key : RowKey} (h : l.entries.get? key = none) :
    l.request key = (⟨key, l.nextMutex, l.nextTicket⟩,
      { entries := l.entries.insert key l.nextMutex
        mutexes := (l.mutexes.insert l.nextMutex .idle).insert l.nextMutex
          (Mutex.idle.enqueue l.nextTicket)
        nextMutex := l.nextMutex + 1
        nextTicket := l.nextTicket + 1 }) := by
  simp [request, entry, h, mutex]

@[simp] theorem request_key (key : RowKey) : (l.request key).1.key = key := rfl

@[simp] theorem request_number (key : RowKey) : (l.request key).1.number = l.nextTicket := by
  cases h : l.entries.get? key with
  | none => rw [request_of_no_entry h]
  | some id => rw [request_of_entry h]

@[simp] theorem nextTicket_request (key : RowKey) :
    (l.request key).2.nextTicket = l.nextTicket + 1 := by
  cases h : l.entries.get? key with
  | none => rw [request_of_no_entry h]
  | some id => rw [request_of_entry h]

/-- The row that is asked for stands at the mutex of the ticket, and other rows stay where they
are. -/
theorem entries_request (key other : RowKey) :
    (l.request key).2.entries.get? other =
      if other = key then some (l.request key).1.mutex else l.entries.get? other := by
  cases h : l.entries.get? key with
  | none => simp [request_of_no_entry h]
  | some id =>
      rw [request_of_entry h]
      by_cases hkey : other = key <;> simp [hkey, h]

theorem request_mutex (l : RowLocks) (key : RowKey) :
    l.entries.get? key = some (l.request key).1.mutex ∧
        (l.request key).2.nextMutex = l.nextMutex ∨
      l.entries.get? key = none ∧ (l.request key).1.mutex = l.nextMutex ∧
        (l.request key).2.nextMutex = l.nextMutex + 1 := by
  cases h : l.entries.get? key with
  | none => simp [request_of_no_entry h]
  | some id => simp [request_of_entry h]

/-- No row loses its mutex when another one is asked for. -/
theorem entries_request_of_some {l : RowLocks} (key : RowKey) {other : RowKey} {id : MutexId}
    (hentry : l.entries.get? other = some id) : (l.request key).2.entries.get? other = some id := by
  rw [entries_request]
  split
  · next hkey =>
      rcases request_mutex l key with ⟨hmutex, -⟩ | ⟨hnone, -⟩
      · rw [← hmutex, ← hkey, hentry]
      · rw [hkey, hnone] at hentry
        cases hentry
  · exact hentry

end RowLocks

/-! ## Claims -/

/-- The tickets that a party holds rows with, and the one that it waits with. -/
structure Claims where
  held : List Ticket
  waiting : Option Ticket

namespace Claims

/-- A party that claims nothing. -/
def none : Claims := ⟨[], .none⟩

def tickets (c : Claims) : List Ticket := c.held ++ c.waiting.toList

theorem mem_tickets {c : Claims} {t : Ticket} :
    t ∈ c.tickets ↔ t ∈ c.held ∨ c.waiting = some t := by
  simp [tickets]

@[simp] theorem tickets_none : none.tickets = [] := rfl

variable {ν : Type} [DecidableEq ν] (claims : ν → Claims) (v w : ν) (t u : Ticket)

/-- The claims after a party has asked for a row. -/
def ask : ν → Claims := Function.update claims v ⟨(claims v).held, some t⟩

/-- The claims after a party was granted the row that it waited for. -/
def take : ν → Claims := Function.update claims v ⟨(claims v).held ++ [t], .none⟩

/-- The claims after a party has given tickets back. -/
def giveBack (ts : List Ticket) : ν → Claims :=
  Function.update claims v
    ⟨(claims v).held.filter (· ∉ ts), (claims v).waiting.filter (· ∉ ts)⟩

@[simp] theorem held_ask : (ask claims v t w).held = (claims w).held := by
  by_cases h : w = v
  · subst h
    simp [ask]
  · simp [ask, h]

theorem waiting_ask :
    (ask claims v t w).waiting = some u ↔
      (w = v ∧ t = u) ∨ (w ≠ v ∧ (claims w).waiting = some u) := by
  by_cases h : w = v
  · subst h
    simp [ask]
  · simp [ask, h]

theorem mem_held_take :
    u ∈ (take claims v t w).held ↔ u ∈ (claims w).held ∨ (w = v ∧ u = t) := by
  by_cases h : w = v
  · subst h
    simp [take]
  · simp [take, h]

theorem waiting_take :
    (take claims v t w).waiting = some u ↔ w ≠ v ∧ (claims w).waiting = some u := by
  by_cases h : w = v
  · subst h
    simp [take]
  · simp [take, h]

theorem mem_held_giveBack (ts : List Ticket) :
    u ∈ (giveBack claims v ts w).held ↔ u ∈ (claims w).held ∧ (w = v → u ∉ ts) := by
  by_cases h : w = v
  · subst h
    simp [giveBack]
  · simp [giveBack, h]

theorem waiting_giveBack (ts : List Ticket) :
    (giveBack claims v ts w).waiting = some u ↔
      (claims w).waiting = some u ∧ (w = v → u ∉ ts) := by
  by_cases h : w = v
  · subst h
    simp [giveBack, Option.filter_eq_some_iff]
  · simp [giveBack, h]

end Claims

namespace RowLocks

variable {ν : Type}

/-- The locks and the claims of all parties are in step. -/
structure Serves (l : RowLocks) (claims : ν → Claims) : Prop where
  entry : ∀ v t, t ∈ (claims v).tickets → l.entries.get? t.key = some t.mutex
  holder : ∀ id n, (l.mutex id).holder = some n ↔
    ∃ v t, t ∈ (claims v).held ∧ t.mutex = id ∧ t.number = n
  queue : ∀ id n, n ∈ (l.mutex id).queue ↔
    ∃ v t, (claims v).waiting = some t ∧ t.mutex = id ∧ t.number = n
  queue_nodup : ∀ id, (l.mutex id).queue.Nodup
  number_lt : ∀ v t, t ∈ (claims v).tickets → t.number < l.nextTicket
  number_inj : ∀ v w t u, t ∈ (claims v).tickets → u ∈ (claims w).tickets →
    t.number = u.number → v = w ∧ t = u
  waiting_not_held : ∀ v t, (claims v).waiting = some t → t ∉ (claims v).held
  entry_lt : ∀ key id, l.entries.get? key = some id → id < l.nextMutex
  entry_inj : ∀ key other id, l.entries.get? key = some id → l.entries.get? other = some id →
    key = other

namespace Serves

variable {l : RowLocks} {claims : ν → Claims}

/-- Nobody claims anything of locks that nobody has asked for. -/
theorem empty : Serves (ν := ν) RowLocks.empty fun _ => .none where
  entry v t h := by simp at h
  holder id n := by simp [RowLocks.empty, mutex, Mutex.idle, Claims.none]
  queue id n := by simp [RowLocks.empty, mutex, Mutex.idle, Claims.none]
  queue_nodup id := by simp [RowLocks.empty, mutex, Mutex.idle]
  number_lt v t h := by simp at h
  number_inj v w t u h := by simp at h
  waiting_not_held v t h := by simp [Claims.none] at h
  entry_lt key id h := by simp [RowLocks.empty] at h
  entry_inj key other id h := by simp [RowLocks.empty] at h

/-- A row is held with one ticket at most. -/
theorem held_inj (h : l.Serves claims) {v w : ν} {t u : Ticket} (ht : t ∈ (claims v).held)
    (hu : u ∈ (claims w).held) (hkey : t.key = u.key) : v = w ∧ t = u := by
  have ht' : t ∈ (claims v).tickets := Claims.mem_tickets.2 (.inl ht)
  have hu' : u ∈ (claims w).tickets := Claims.mem_tickets.2 (.inl hu)
  have hmutex : t.mutex = u.mutex := by
    have hentry := h.entry v t ht'
    rw [hkey, h.entry w u hu'] at hentry
    exact (Option.some.inj hentry).symm
  have htn := (h.holder t.mutex t.number).2 ⟨v, t, ht, rfl, rfl⟩
  have hun := (h.holder u.mutex u.number).2 ⟨w, u, hu, rfl, rfl⟩
  rw [hmutex, hun] at htn
  exact h.number_inj v w t u ht' hu' (Option.some.inj htn).symm

/-- Two parties never hold the same row. -/
theorem held_exclusive (h : l.Serves claims) {v w : ν} {t u : Ticket} (ht : t ∈ (claims v).held)
    (hu : u ∈ (claims w).held) (hkey : t.key = u.key) : v = w :=
  (h.held_inj ht hu hkey).1

theorem mutex_ne_of_free (h : l.Serves claims) {id : MutexId}
    (free : (l.mutex id).holder = none) {v : ν} {t : Ticket} (ht : t ∈ (claims v).held) :
    t.mutex ≠ id := by
  intro hid
  have hholder := (h.holder id t.number).2 ⟨v, t, ht, hid, rfl⟩
  rw [free] at hholder
  cases hholder

theorem mutex_idle (h : l.Serves claims) {id : MutexId}
    (free : ∀ v t, t ∈ (claims v).tickets → t.mutex ≠ id) : l.mutex id = .idle := by
  have hholder : (l.mutex id).holder = none := by
    refine Option.eq_none_iff_forall_not_mem.2 fun n hn => ?_
    obtain ⟨v, t, ht, hmutex, -⟩ := (h.holder _ n).1 hn
    exact free v t (Claims.mem_tickets.2 (.inl ht)) hmutex
  have hqueue : (l.mutex id).queue = [] := by
    refine List.eq_nil_iff_forall_not_mem.2 fun n hn => ?_
    obtain ⟨v, t, ht, hmutex, -⟩ := (h.queue _ n).1 hn
    exact free v t (Claims.mem_tickets.2 (.inr ht)) hmutex
  cases hm : l.mutex id with
  | mk holder queue =>
      rw [hm] at hholder hqueue
      rw [show holder = none from hholder, show queue = [] from hqueue, Mutex.idle]

/-- Nobody stands at the mutex that is made next. -/
theorem mutex_next (h : l.Serves claims) : l.mutex l.nextMutex = .idle :=
  h.mutex_idle fun v t ht e => Nat.lt_irrefl _ (e ▸ h.entry_lt _ _ (h.entry v t ht))

theorem mutex_request (h : l.Serves claims) (key : RowKey) (id : MutexId) :
    (l.request key).2.mutex id =
      if id = (l.request key).1.mutex then (l.mutex id).enqueue l.nextTicket else l.mutex id := by
  cases hentry : l.entries.get? key with
  | none =>
      rw [request_of_no_entry hentry]
      by_cases hid : id = l.nextMutex
      · subst hid
        rw [if_pos rfl, h.mutex_next]
        simp [mutex]
      · simp [mutex, hid]
  | some other =>
      rw [request_of_entry hentry]
      by_cases hid : id = other <;> simp [mutex, hid]

theorem holder_request (h : l.Serves claims) (key : RowKey) (id : MutexId) :
    ((l.request key).2.mutex id).holder = (l.mutex id).holder := by
  rw [h.mutex_request]
  split <;> rfl

theorem mem_queue_request (h : l.Serves claims) {key : RowKey} {id : MutexId} {n : Nat} :
    n ∈ ((l.request key).2.mutex id).queue ↔
      n ∈ (l.mutex id).queue ∨ ((l.request key).1.mutex = id ∧ l.nextTicket = n) := by
  rw [h.mutex_request]
  by_cases hid : id = (l.request key).1.mutex
  · simp [hid, Mutex.enqueue, eq_comm]
  · simp [hid, Ne.symm hid]

theorem next_not_mem_queue (h : l.Serves claims) (id : MutexId) :
    l.nextTicket ∉ (l.mutex id).queue := by
  intro hn
  obtain ⟨v, t, ht, -, hnumber⟩ := (h.queue id _).1 hn
  exact Nat.lt_irrefl _ (hnumber ▸ h.number_lt v t (Claims.mem_tickets.2 (.inr ht)))

/-- The mutex of a row that is asked for is not the mutex of another row. -/
theorem eq_of_entry_request (h : l.Serves claims) {key other : RowKey}
    (hentry : l.entries.get? other = some (l.request key).1.mutex) : other = key := by
  rcases request_mutex l key with ⟨hmutex, -⟩ | ⟨-, hmutex, -⟩
  · exact h.entry_inj other key _ hentry hmutex
  · rw [hmutex] at hentry
    exact absurd (h.entry_lt other _ hentry) (Nat.lt_irrefl _)

/-- A row that nobody holds or waits for is granted at once. -/
theorem request_granted (h : l.Serves claims) {key : RowKey}
    (free : ∀ v t, t ∈ (claims v).tickets → t.key ≠ key) :
    ∃ l', (l.request key).2.grant? (l.request key).1 = some l' := by
  have hidle : l.mutex (l.request key).1.mutex = .idle := h.mutex_idle fun v t ht hmutex =>
    free v t ht (h.eq_of_entry_request (hmutex ▸ h.entry v t ht))
  have hgrant : (Mutex.idle.enqueue l.nextTicket).grant? l.nextTicket =
      some ⟨some l.nextTicket, []⟩ := by simp [Mutex.idle, Mutex.enqueue, Mutex.grant?]
  rw [grant?, h.mutex_request, if_pos rfl, hidle, request_number, hgrant]
  exact ⟨_, rfl⟩

variable [DecidableEq ν]

/-- Asking for a row puts a new ticket at the end of the queue of its mutex. -/
theorem request (h : l.Serves claims) {v : ν} (hv : (claims v).waiting = none) (key : RowKey) :
    (l.request key).2.Serves (Claims.ask claims v (l.request key).1) := by
  have hnumber := l.request_number key
  have tickets : ∀ w u, u ∈ (Claims.ask claims v (l.request key).1 w).tickets →
      (w = v ∧ (l.request key).1 = u) ∨ u ∈ (claims w).tickets := by
    intro w u hu
    rw [Claims.mem_tickets, Claims.held_ask, Claims.waiting_ask] at hu
    rcases hu with hu | hu | ⟨-, hu⟩
    · exact .inr (Claims.mem_tickets.2 (.inl hu))
    · exact .inl hu
    · exact .inr (Claims.mem_tickets.2 (.inr hu))
  have fresh : ∀ w u, u ∈ (claims w).tickets → u.number ≠ l.nextTicket := fun w u hu =>
    Nat.ne_of_lt (h.number_lt w u hu)
  constructor
  case entry =>
    intro w u hu
    rcases tickets w u hu with ⟨-, rfl⟩ | hu
    · rw [entries_request, request_key, if_pos rfl]
    · exact entries_request_of_some key (h.entry w u hu)
  case holder =>
    intro id n
    simp only [h.holder_request, h.holder, Claims.held_ask]
  case queue =>
    intro id n
    rw [h.mem_queue_request, h.queue]
    simp only [Claims.waiting_ask]
    constructor
    · rintro (⟨w, u, hu, hid⟩ | ⟨hid, hn⟩)
      · refine ⟨w, u, .inr ⟨?_, hu⟩, hid⟩
        rintro rfl
        rw [hv] at hu
        cases hu
      · exact ⟨v, _, .inl ⟨rfl, rfl⟩, hid, hnumber.trans hn⟩
    · rintro ⟨w, u, ⟨rfl, rfl⟩ | ⟨-, hu⟩, hid, hn⟩
      · exact .inr ⟨hid, hnumber.symm.trans hn⟩
      · exact .inl ⟨w, u, hu, hid, hn⟩
  case queue_nodup =>
    intro id
    rw [h.mutex_request]
    split
    · exact List.nodup_append.2 ⟨h.queue_nodup id, by simp, by
        rintro n hn _ hm rfl
        exact h.next_not_mem_queue id (List.mem_singleton.1 hm ▸ hn)⟩
    · exact h.queue_nodup id
  case number_lt =>
    intro w u hu
    rw [nextTicket_request]
    rcases tickets w u hu with ⟨-, rfl⟩ | hu
    · rw [hnumber]
      exact Nat.lt_succ_self _
    · exact Nat.lt_succ_of_lt (h.number_lt w u hu)
  case number_inj =>
    intro w x u y hu hy hn
    rcases tickets w u hu with ⟨hw, rfl⟩ | hu' <;> rcases tickets x y hy with ⟨hx, rfl⟩ | hy'
    · exact ⟨hw.trans hx.symm, rfl⟩
    · exact absurd (hn.symm.trans hnumber) (fresh x y hy')
    · exact absurd (hn.trans hnumber) (fresh w u hu')
    · exact h.number_inj w x u y hu' hy' hn
  case waiting_not_held =>
    intro w u hu hheld
    rw [Claims.held_ask] at hheld
    rcases (Claims.waiting_ask ..).1 hu with ⟨rfl, rfl⟩ | ⟨-, hu⟩
    · exact fresh w _ (Claims.mem_tickets.2 (.inl hheld)) hnumber
    · exact h.waiting_not_held w u hu hheld
  case entry_lt =>
    intro other id hentry
    rw [entries_request] at hentry
    rcases request_mutex l key with ⟨hmutex, hnext⟩ | ⟨-, hmutex, hnext⟩ <;>
      rw [hnext] <;> split at hentry
    · exact h.entry_lt key id (hentry ▸ hmutex)
    · exact h.entry_lt other id hentry
    · rw [← Option.some.inj hentry, hmutex]
      exact Nat.lt_succ_self _
    · exact Nat.lt_succ_of_lt (h.entry_lt other id hentry)
  case entry_inj =>
    intro one other id hone hother
    rw [entries_request] at hone hother
    split at hone <;> split at hother
    · next h₁ h₂ => rw [h₁, h₂]
    · next h₁ _ => rw [h₁, h.eq_of_entry_request (hother.trans hone.symm)]
    · next _ h₂ => rw [h₂, h.eq_of_entry_request (hone.trans hother.symm)]
    · exact h.entry_inj one other id hone hother

/-- A ticket that is granted was first in the queue, and holds the row from now on. -/
theorem grant (h : l.Serves claims) {v : ν} {t : Ticket} (hv : (claims v).waiting = some t)
    {l' : RowLocks} (hgrant : l.grant? t = some l') : l'.Serves (Claims.take claims v t) := by
  obtain ⟨rest, hmutex, rfl⟩ := grant?_eq_some hgrant
  have ht : t ∈ (claims v).tickets := Claims.mem_tickets.2 (.inr hv)
  have tickets : ∀ w u, u ∈ (Claims.take claims v t w).tickets → u ∈ (claims w).tickets := by
    intro w u hu
    rw [Claims.mem_tickets, Claims.mem_held_take, Claims.waiting_take] at hu
    rcases hu with (hu | ⟨rfl, rfl⟩) | ⟨-, hu⟩
    · exact Claims.mem_tickets.2 (.inl hu)
    · exact ht
    · exact Claims.mem_tickets.2 (.inr hu)
  have hnodup : t.number ∉ rest := by
    have := h.queue_nodup t.mutex
    rw [hmutex] at this
    exact (List.nodup_cons.1 this).1
  constructor
  case entry => exact fun w u hu => h.entry w u (tickets w u hu)
  case holder =>
    intro id n
    rw [mutex_insert]
    simp only [Claims.mem_held_take]
    by_cases hid : id = t.mutex
    · subst hid
      have hfree : (l.mutex t.mutex).holder = none := by rw [hmutex]
      rw [if_pos rfl, Option.some.injEq]
      constructor
      · exact fun hn => ⟨v, t, .inr ⟨rfl, rfl⟩, rfl, hn⟩
      · rintro ⟨w, u, hu | ⟨-, rfl⟩, hid, hn⟩
        · exact absurd hid (h.mutex_ne_of_free hfree hu)
        · exact hn
    · rw [if_neg hid, h.holder]
      constructor
      · rintro ⟨w, u, hu, hid⟩
        exact ⟨w, u, .inl hu, hid⟩
      · rintro ⟨w, u, hu | ⟨-, rfl⟩, hid', hn⟩
        · exact ⟨w, u, hu, hid', hn⟩
        · exact absurd hid'.symm hid
  case queue =>
    intro id n
    rw [mutex_insert]
    simp only [Claims.waiting_take]
    by_cases hid : id = t.mutex
    · subst hid
      have hqueue := h.queue t.mutex n
      rw [hmutex] at hqueue
      rw [if_pos rfl]
      constructor
      · intro hn
        obtain ⟨w, u, hu, hid, rfl⟩ := hqueue.1 (List.mem_cons_of_mem _ hn)
        refine ⟨w, u, ⟨?_, hu⟩, hid, rfl⟩
        rintro rfl
        rw [hv, Option.some.injEq] at hu
        exact hnodup (hu ▸ hn)
      · rintro ⟨w, u, ⟨hw, hu⟩, hid, rfl⟩
        rcases List.mem_cons.1 (hqueue.2 ⟨w, u, hu, hid, rfl⟩) with hn | hn
        · exact absurd (h.number_inj w v u t (Claims.mem_tickets.2 (.inr hu)) ht hn).1 hw
        · exact hn
    · rw [if_neg hid, h.queue]
      constructor
      · rintro ⟨w, u, hu, hid', hn⟩
        refine ⟨w, u, ⟨?_, hu⟩, hid', hn⟩
        rintro rfl
        rw [hv, Option.some.injEq] at hu
        exact hid (hu ▸ hid'.symm)
      · rintro ⟨w, u, ⟨-, hu⟩, hid', hn⟩
        exact ⟨w, u, hu, hid', hn⟩
  case queue_nodup =>
    intro id
    rw [mutex_insert]
    split
    · have := h.queue_nodup t.mutex
      rw [hmutex] at this
      exact (List.nodup_cons.1 this).2
    · exact h.queue_nodup id
  case number_lt => exact fun w u hu => h.number_lt w u (tickets w u hu)
  case number_inj =>
    exact fun w x u y hu hy => h.number_inj w x u y (tickets w u hu) (tickets x y hy)
  case waiting_not_held =>
    intro w u hu hheld
    obtain ⟨hw, hu⟩ := (Claims.waiting_take ..).1 hu
    rcases (Claims.mem_held_take ..).1 hheld with hheld | ⟨hw', -⟩
    · exact h.waiting_not_held w u hu hheld
    · exact hw hw'
  case entry_lt => exact h.entry_lt
  case entry_inj => exact h.entry_inj

/-- Giving tickets back leaves the claims of all others as they are. -/
theorem giveBackAll (h : l.Serves claims) (v : ν) (ts : List Ticket)
    (hts : ∀ t ∈ ts, t ∈ (claims v).tickets) :
    (l.giveBackAll ts).Serves (Claims.giveBack claims v ts) := by
  have tickets : ∀ w u, u ∈ (Claims.giveBack claims v ts w).tickets →
      u ∈ (claims w).tickets := by
    intro w u hu
    rw [Claims.mem_tickets, Claims.mem_held_giveBack, Claims.waiting_giveBack] at hu
    exact Claims.mem_tickets.2 (hu.imp And.left And.left)
  -- The numbers that are given back are those of the party's own tickets.
  have own : ∀ w u, u ∈ (claims w).tickets →
      ((∀ t ∈ ts, t.mutex = u.mutex → t.number ≠ u.number) ↔ (w = v → u ∉ ts)) := by
    intro w u hu
    constructor
    · exact fun hne _ hmem => hne u hmem rfl rfl
    · intro hmem t ht _ hn
      obtain ⟨rfl, rfl⟩ := h.number_inj v w t u (hts t ht) hu hn
      exact hmem rfl ht
  constructor
  case entry =>
    intro w u hu
    rw [entries_giveBackAll]
    exact h.entry w u (tickets w u hu)
  case holder =>
    intro id n
    rw [holder_giveBackAll, h.holder]
    simp only [Claims.mem_held_giveBack]
    constructor
    · rintro ⟨⟨w, u, hu, rfl, rfl⟩, hne⟩
      exact ⟨w, u, ⟨hu, (own w u (Claims.mem_tickets.2 (.inl hu))).1 hne⟩, rfl, rfl⟩
    · rintro ⟨w, u, ⟨hu, hmem⟩, rfl, rfl⟩
      exact ⟨⟨w, u, hu, rfl, rfl⟩, (own w u (Claims.mem_tickets.2 (.inl hu))).2 hmem⟩
  case queue =>
    intro id n
    rw [mem_queue_giveBackAll, h.queue]
    simp only [Claims.waiting_giveBack]
    constructor
    · rintro ⟨⟨w, u, hu, rfl, rfl⟩, hne⟩
      exact ⟨w, u, ⟨hu, (own w u (Claims.mem_tickets.2 (.inr hu))).1 hne⟩, rfl, rfl⟩
    · rintro ⟨w, u, ⟨hu, hmem⟩, rfl, rfl⟩
      exact ⟨⟨w, u, hu, rfl, rfl⟩, (own w u (Claims.mem_tickets.2 (.inr hu))).2 hmem⟩
  case queue_nodup => exact fun id => queue_nodup_giveBackAll l (h.queue_nodup id)
  case number_lt =>
    intro w u hu
    rw [nextTicket_giveBackAll]
    exact h.number_lt w u (tickets w u hu)
  case number_inj =>
    exact fun w x u y hu hy => h.number_inj w x u y (tickets w u hu) (tickets x y hy)
  case waiting_not_held =>
    intro w u hu hheld
    exact h.waiting_not_held w u ((Claims.waiting_giveBack ..).1 hu).1
      ((Claims.mem_held_giveBack ..).1 hheld).1
  case entry_lt =>
    rw [entries_giveBackAll, nextMutex_giveBackAll]
    exact h.entry_lt
  case entry_inj =>
    rw [entries_giveBackAll]
    exact h.entry_inj

omit [DecidableEq ν] in
/-- Pruning forgets no row that somebody holds or waits for. -/
theorem prune (h : l.Serves claims) : l.prune.Serves claims := by
  have entry : ∀ key id, l.prune.entries.get? key = some id → l.entries.get? key = some id := by
    intro key id hentry
    rw [entries_prune, Option.filter_eq_some_iff] at hentry
    exact hentry.1
  constructor
  case entry =>
    intro v t ht
    rw [entries_prune, Option.filter_eq_some_iff, decide_eq_true_eq]
    refine ⟨h.entry v t ht, ?_⟩
    rcases Claims.mem_tickets.1 ht with ht | ht
    · exact references_of_holder ((h.holder _ _).2 ⟨v, t, ht, rfl, rfl⟩)
    · exact references_of_mem_queue ((h.queue _ _).2 ⟨v, t, ht, rfl, rfl⟩)
  case holder =>
    intro id n
    rw [mutex_prune]
    exact h.holder id n
  case queue =>
    intro id n
    rw [mutex_prune]
    exact h.queue id n
  case queue_nodup =>
    intro id
    rw [mutex_prune]
    exact h.queue_nodup id
  case number_lt => exact h.number_lt
  case number_inj => exact h.number_inj
  case waiting_not_held => exact h.waiting_not_held
  case entry_lt => exact fun key id hentry => h.entry_lt key id (entry key id hentry)
  case entry_inj =>
    exact fun key other id hkey hother =>
      h.entry_inj key other id (entry key id hkey) (entry other id hother)

end Serves

end RowLocks

end RentalDesk
