import RentalDesk.Proofs.Claims

/-!
# Who is next

Tickets are numbered in the order in which they are asked for, and every queue is in that order. So
whether a ticket is granted can be seen from the claims alone: nobody holds its row, and nobody with
an older ticket waits for the row. Two families of claims are alike if the same parties hold and
await the same rows and have come in the same order; then the locks that serve them grant the same
parties the same rows, whatever mutexes and tickets they have made.
-/

namespace RentalDesk

namespace RowLocks

variable {ν : Type} {l : RowLocks} {claims : ν → Claims}

/-! ## Queues in order -/

/-- Older tickets stand in front of later ones. -/
def Queued (l : RowLocks) : Prop := ∀ id, (l.mutex id).queue.Pairwise (· < ·)

theorem Queued.empty : RowLocks.empty.Queued := fun _ => .nil

theorem Queued.request (h : l.Queued) (serves : l.Serves claims) (key : RowKey) :
    (l.request key).2.Queued := by
  intro id
  rw [serves.mutex_request]
  split
  · refine List.pairwise_append.2 ⟨h id, List.pairwise_singleton _ _, fun n hn m hm => ?_⟩
    obtain rfl := List.mem_singleton.1 hm
    obtain ⟨v, t, ht, -, rfl⟩ := (serves.queue id n).1 hn
    exact serves.number_lt v t (Claims.mem_tickets.2 (.inr ht))
  · exact h id

theorem Queued.grant {l' : RowLocks} {t : Ticket} (h : l.Queued) (granted : l.grant? t = some l') :
    l'.Queued := by
  obtain ⟨rest, hmutex, rfl⟩ := grant?_eq_some granted
  intro id
  rw [mutex_insert]
  split
  · have hqueue := h t.mutex
    rw [hmutex] at hqueue
    exact (List.pairwise_cons.1 hqueue).2
  · exact h id

theorem Queued.giveBack (h : l.Queued) (t : Ticket) : (l.giveBack t).Queued := by
  intro id
  rw [mutex_giveBack]
  split
  · exact (h t.mutex).filter _
  · exact h id

theorem Queued.giveBackAll (h : l.Queued) (ts : List Ticket) : (l.giveBackAll ts).Queued := by
  induction ts generalizing l with
  | nil => exact h
  | cons t ts ih => exact ih (h.giveBack t)

theorem Queued.prune (h : l.Queued) : l.prune.Queued := by
  intro id
  rw [mutex_prune]
  exact h id

/-! ## Granting -/

/-- Whether somebody who asks for the row now is granted it at once. -/
def isFree (l : RowLocks) (key : RowKey) : Bool :=
  ((l.request key).2.grant? (l.request key).1).isSome

namespace Serves

/-- Tickets for one row stand at one mutex, and those for different rows at different ones. -/
theorem mutex_eq_iff (h : l.Serves claims) {v w : ν} {t u : Ticket} (ht : t ∈ (claims v).tickets)
    (hu : u ∈ (claims w).tickets) : t.mutex = u.mutex ↔ t.key = u.key := by
  have htentry := h.entry v t ht
  have huentry := h.entry w u hu
  constructor
  · exact fun hmutex => h.entry_inj _ _ _ htentry (hmutex ▸ huentry)
  · intro hkey
    rw [hkey, huentry] at htentry
    exact (Option.some.inj htentry).symm

/-- A ticket is granted if nobody holds its row and no older ticket waits for the row. -/
theorem isSome_grant?_iff (h : l.Serves claims) (queued : l.Queued) {v : ν} {t : Ticket}
    (hv : (claims v).waiting = some t) :
    (l.grant? t).isSome ↔ (∀ w u, u ∈ (claims w).held → u.key ≠ t.key) ∧
      ∀ w u, (claims w).waiting = some u → u.key = t.key → t.number ≤ u.number := by
  have ht : t ∈ (claims v).tickets := Claims.mem_tickets.2 (.inr hv)
  constructor
  · intro hgrant
    obtain ⟨l', hl'⟩ := Option.isSome_iff_exists.1 hgrant
    obtain ⟨rest, hmutex, -⟩ := grant?_eq_some hl'
    have hqueue := queued t.mutex
    refine ⟨fun w u hu hkey => ?_, fun w u hu hkey => ?_⟩
    · have hfree : (l.mutex t.mutex).holder = none := by rw [hmutex]
      exact h.mutex_ne_of_free hfree hu
        ((h.mutex_eq_iff (Claims.mem_tickets.2 (.inl hu)) ht).2 hkey)
    · have hmem := (h.queue t.mutex u.number).2
        ⟨w, u, hu, (h.mutex_eq_iff (Claims.mem_tickets.2 (.inr hu)) ht).2 hkey, rfl⟩
      rw [hmutex] at hqueue hmem
      rcases List.mem_cons.1 hmem with hn | hn
      · exact Nat.le_of_eq hn.symm
      · exact Nat.le_of_lt ((List.pairwise_cons.1 hqueue).1 _ hn)
  · rintro ⟨hfree, hfirst⟩
    have hholder : (l.mutex t.mutex).holder = none := by
      refine Option.eq_none_iff_forall_not_mem.2 fun n hn => ?_
      obtain ⟨w, u, hu, hmutex, -⟩ := (h.holder _ n).1 hn
      exact hfree w u hu ((h.mutex_eq_iff (Claims.mem_tickets.2 (.inl hu)) ht).1 hmutex)
    have hmem := (h.queue t.mutex t.number).2 ⟨v, t, hv, rfl, rfl⟩
    have hqueue := queued t.mutex
    cases hline : (l.mutex t.mutex).queue with
    | nil =>
        rw [hline] at hmem
        cases hmem
    | cons first rest =>
        -- The first in the queue is no later than the ticket, and no older ticket waits.
        obtain ⟨w, u, hu, hmutex, hnumber⟩ :=
          (h.queue t.mutex first).1 (hline ▸ List.mem_cons_self)
        have hle := hfirst w u hu ((h.mutex_eq_iff (Claims.mem_tickets.2 (.inr hu)) ht).1 hmutex)
        rw [hline] at hmem hqueue
        have hfirst : first = t.number := by
          rcases List.mem_cons.1 hmem with hn | hn
          · exact hn.symm
          · have hlt := (List.pairwise_cons.1 hqueue).1 _ hn
            omega
        have hmutex : l.mutex t.mutex = ⟨none, t.number :: rest⟩ := by
          rw [← hholder, ← hfirst, ← hline]
        rw [grant?, hmutex]
        simp [Mutex.grant?]

/-- A row is free if nobody claims it. -/
theorem isFree_iff (h : l.Serves claims) (key : RowKey) :
    l.isFree key ↔ ∀ v t, t ∈ (claims v).tickets → t.key ≠ key := by
  constructor
  · intro hfree v t ht hkey
    obtain ⟨l', hl'⟩ := Option.isSome_iff_exists.1 hfree
    obtain ⟨rest, hmutex, -⟩ := grant?_eq_some hl'
    have htmutex : t.mutex = (l.request key).1.mutex := by
      have hentry := entries_request_of_some key (h.entry v t ht)
      rw [entries_request, if_pos hkey] at hentry
      exact (Option.some.inj hentry).symm
    rw [h.mutex_request, if_pos rfl, ← htmutex, Mutex.enqueue, request_number] at hmutex
    obtain ⟨hholder, hqueue⟩ := Mutex.mk.inj hmutex
    rcases Claims.mem_tickets.1 ht with ht | ht
    · exact h.mutex_ne_of_free hholder ht rfl
    · have hmem := (h.queue t.mutex t.number).2 ⟨v, t, ht, rfl, rfl⟩
      cases hline : (l.mutex t.mutex).queue with
      | nil =>
          rw [hline] at hmem
          cases hmem
      | cons first more =>
          rw [hline, List.cons_append] at hqueue
          exact h.next_not_mem_queue t.mutex
            (hline ▸ (List.cons.inj hqueue).1 ▸ List.mem_cons_self)
  · intro hfree
    obtain ⟨l', hl'⟩ := h.request_granted hfree
    exact Option.isSome_iff_exists.2 ⟨l', hl'⟩

/-- One more party that claims nothing makes no difference. -/
theorem option_iff {claims : Option ν → Claims} (hnone : claims none = .none) :
    l.Serves claims ↔ l.Serves fun v => claims (some v) := by
  constructor
  · intro h
    constructor
    case entry => exact fun v => h.entry v
    case holder =>
      intro id n
      simp [h.holder, Option.exists, hnone, Claims.none]
    case queue =>
      intro id n
      simp [h.queue, Option.exists, hnone, Claims.none]
    case queue_nodup => exact h.queue_nodup
    case number_lt => exact fun v => h.number_lt v
    case number_inj =>
      intro v w t u ht hu hn
      obtain ⟨hvw, htu⟩ := h.number_inj v w t u ht hu hn
      exact ⟨Option.some.inj hvw, htu⟩
    case waiting_not_held => exact fun v => h.waiting_not_held v
    case entry_lt => exact h.entry_lt
    case entry_inj => exact h.entry_inj
  · intro h
    have nobody : ∀ t, t ∉ (claims none).tickets := by simp [hnone]
    constructor
    case entry =>
      rintro (_ | v) t ht
      · exact absurd ht (nobody t)
      · exact h.entry v t ht
    case holder =>
      intro id n
      simp [h.holder, Option.exists, hnone, Claims.none]
    case queue =>
      intro id n
      simp [h.queue, Option.exists, hnone, Claims.none]
    case queue_nodup => exact h.queue_nodup
    case number_lt =>
      rintro (_ | v) t ht
      · exact absurd ht (nobody t)
      · exact h.number_lt v t ht
    case number_inj =>
      rintro (_ | v) (_ | w) t u ht hu hn
      · exact absurd ht (nobody t)
      · exact absurd ht (nobody t)
      · exact absurd hu (nobody u)
      · obtain ⟨rfl, rfl⟩ := h.number_inj v w t u ht hu hn
        exact ⟨rfl, rfl⟩
    case waiting_not_held =>
      rintro (_ | v) t ht
      · exact absurd (Claims.mem_tickets.2 (.inr ht)) (nobody t)
      · exact h.waiting_not_held v t ht
    case entry_lt => exact h.entry_lt
    case entry_inj => exact h.entry_inj

/-- Somebody who is granted a row at once and gives it back leaves the claims as they are. -/
theorem visit [DecidableEq ν] (h : l.Serves claims) {key : RowKey} {l' : RowLocks}
    (granted : (l.request key).2.grant? (l.request key).1 = some l') :
    (l'.giveBack (l.request key).1).Serves claims := by
  let t := (l.request key).1
  let everybody : Option ν → Claims := fun v => v.elim .none claims
  have habsent : everybody none = .none := rfl
  have hask := ((option_iff habsent).2 h).request (v := none) rfl key
  have htake := hask.grant (v := none) (t := t) (by simp [Claims.ask, t]) granted
  have hback := htake.giveBackAll none [t] (by simp [Claims.take, Claims.ask, Claims.tickets])
  have hnone : Claims.giveBack (Claims.take (Claims.ask everybody none t) none t) none [t] none =
      .none := by
    simp [Claims.giveBack, Claims.take, Claims.ask, Claims.none, everybody]
  have hothers : (fun v => Claims.giveBack (Claims.take (Claims.ask everybody none t) none t) none
      [t] (some v)) = claims := by
    funext v
    simp [Claims.giveBack, Claims.take, Claims.ask, everybody]
  rw [option_iff hnone, hothers] at hback
  exact hback

end Serves

end RowLocks

/-! ## Claims in the same order -/

/-- The same parties hold and await the same rows, and those who wait have come in the same
order. -/
structure Claims.Alike {ν : Type} (c d : ν → Claims) : Prop where
  held : ∀ v, (c v).held.map Ticket.key = (d v).held.map Ticket.key
  waiting : ∀ v, (c v).waiting.map Ticket.key = (d v).waiting.map Ticket.key
  order : ∀ v w t u t' u', (c v).waiting = some t → (c w).waiting = some u →
    (d v).waiting = some t' → (d w).waiting = some u' →
    (t.number < u.number ↔ t'.number < u'.number)

namespace Claims.Alike

variable {ν : Type} {c d : ν → Claims} {l l' : RowLocks}

theorem symm (h : Alike c d) : Alike d c where
  held v := (h.held v).symm
  waiting v := (h.waiting v).symm
  order v w t u t' u' ht hu ht' hu' := (h.order v w t' u' t u ht' hu' ht hu).symm

theorem nobody : Alike (ν := ν) (fun _ => .none) fun _ => .none where
  held _ := rfl
  waiting _ := rfl
  order _ _ _ _ _ _ ht := by cases ht

/-- Whoever waits in one family waits for the same row in the other one. -/
theorem exists_waiting (h : Alike c d) {v : ν} {t : Ticket} (hv : (c v).waiting = some t) :
    ∃ t', (d v).waiting = some t' ∧ t'.key = t.key := by
  have hkey := h.waiting v
  rw [hv] at hkey
  obtain ⟨t', ht', hkey⟩ := Option.map_eq_some_iff.1 hkey.symm
  exact ⟨t', ht', hkey⟩

theorem exists_held (h : Alike c d) {v : ν} {t : Ticket} (hv : t ∈ (c v).held) :
    ∃ t' ∈ (d v).held, t'.key = t.key := by
  have hkey : t.key ∈ (d v).held.map Ticket.key := h.held v ▸ List.mem_map_of_mem hv
  exact List.mem_map.1 hkey

theorem exists_ticket (h : Alike c d) {v : ν} {t : Ticket} (hv : t ∈ (c v).tickets) :
    ∃ t' ∈ (d v).tickets, t'.key = t.key := by
  rcases Claims.mem_tickets.1 hv with hv | hv
  · obtain ⟨t', ht', hkey⟩ := h.exists_held hv
    exact ⟨t', Claims.mem_tickets.2 (.inl ht'), hkey⟩
  · obtain ⟨t', ht', hkey⟩ := h.exists_waiting hv
    exact ⟨t', Claims.mem_tickets.2 (.inr ht'), hkey⟩

theorem isFree_of (h : Alike c d) (serves : l.Serves c) (serves' : l'.Serves d) {key : RowKey}
    (free : l.isFree key) : l'.isFree key := by
  refine (serves'.isFree_iff key).2 fun v t ht hkey => ?_
  obtain ⟨u, hu, hukey⟩ := h.symm.exists_ticket ht
  exact (serves.isFree_iff key).1 free v u hu (hukey.trans hkey)

/-- The same rows are free. -/
theorem isFree_eq (h : Alike c d) (serves : l.Serves c) (serves' : l'.Serves d) (key : RowKey) :
    l.isFree key = l'.isFree key :=
  Bool.eq_iff_iff.2 ⟨h.isFree_of serves serves', h.symm.isFree_of serves' serves⟩

theorem granted_of (h : Alike c d) (serves : l.Serves c) (serves' : l'.Serves d) (queued : l.Queued)
    (queued' : l'.Queued) {v : ν} {t t' : Ticket} (ht : (c v).waiting = some t)
    (ht' : (d v).waiting = some t') (granted : (l.grant? t).isSome) : (l'.grant? t').isSome := by
  have hkey : t.key = t'.key := by
    have hwaiting := h.waiting v
    rw [ht, ht'] at hwaiting
    exact Option.some.inj hwaiting
  obtain ⟨hfree, hfirst⟩ := (serves.isSome_grant?_iff queued ht).1 granted
  refine (serves'.isSome_grant?_iff queued' ht').2 ⟨fun w u hu hukey => ?_, fun w u hu hukey => ?_⟩
  · obtain ⟨x, hx, hxkey⟩ := h.symm.exists_held hu
    exact hfree w x hx (hxkey.trans (hukey.trans hkey.symm))
  · obtain ⟨x, hx, hxkey⟩ := h.symm.exists_waiting hu
    have hle := hfirst w x hx (hxkey.trans (hukey.trans hkey.symm))
    exact Nat.le_of_not_lt fun hlt =>
      Nat.not_lt_of_le hle ((h.order w v x t u t' hx ht hu ht').2 hlt)

/-- Both locks grant a party the row that it waits for, or neither of them does. -/
theorem granted_eq (h : Alike c d) (serves : l.Serves c) (serves' : l'.Serves d) (queued : l.Queued)
    (queued' : l'.Queued) {v : ν} {t t' : Ticket} (ht : (c v).waiting = some t)
    (ht' : (d v).waiting = some t') : (l.grant? t).isSome = (l'.grant? t').isSome :=
  Bool.eq_iff_iff.2 ⟨h.granted_of serves serves' queued queued' ht ht',
    h.symm.granted_of serves' serves queued' queued ht' ht⟩

variable [DecidableEq ν]

/-- A party that waits for nothing afterwards leaves the order of the others as it is. -/
theorem update (h : Alike c d) (v : ν) {x y : Claims}
    (held : x.held.map Ticket.key = y.held.map Ticket.key) (hx : x.waiting = .none)
    (hy : y.waiting = .none) : Alike (Function.update c v x) (Function.update d v y) where
  held w := by
    by_cases hw : w = v
    · subst hw
      simpa using held
    · simpa [hw] using h.held w
  waiting w := by
    by_cases hw : w = v
    · subst hw
      simp [hx, hy]
    · simpa [hw] using h.waiting w
  order u w t t' s s' ht ht' hs hs' := by
    have hne : ∀ w t, (Function.update c v x w).waiting = some t → w ≠ v := by
      rintro w t hwt rfl
      rw [Function.update_self, hx] at hwt
      cases hwt
    have hu := hne u t ht
    have hw := hne w t' ht'
    rw [Function.update_of_ne hu] at ht hs
    rw [Function.update_of_ne hw] at ht' hs'
    exact h.order u w t t' s s' ht ht' hs hs'

/-- Whoever asks for a row now has come last. -/
theorem ask (h : Alike c d) (serves : l.Serves c) (serves' : l'.Serves d) (v : ν) (key : RowKey) :
    Alike (Claims.ask c v (l.request key).1) (Claims.ask d v (l'.request key).1) where
  held w := by
    rw [Claims.held_ask, Claims.held_ask]
    exact h.held w
  waiting w := by
    by_cases hw : w = v
    · subst hw
      simp [Claims.ask]
    · simpa [Claims.ask, hw] using h.waiting w
  order u w t t' s s' ht ht' hs hs' := by
    have older : ∀ {u t}, (c u).waiting = some t → t.number < l.nextTicket := fun ht =>
      serves.number_lt _ _ (Claims.mem_tickets.2 (.inr ht))
    have older' : ∀ {u t}, (d u).waiting = some t → t.number < l'.nextTicket := fun ht =>
      serves'.number_lt _ _ (Claims.mem_tickets.2 (.inr ht))
    have hnew := l.request_number key
    have hnew' := l'.request_number key
    rw [Claims.waiting_ask] at ht ht' hs hs'
    by_cases hu : u = v <;> by_cases hw : w = v
    · simp only [hu, hw, true_and, ne_eq, not_true, false_and, or_false] at ht ht' hs hs'
      rw [← ht, ← ht', ← hs, ← hs']
      exact iff_of_false (Nat.lt_irrefl _) (Nat.lt_irrefl _)
    · simp only [hu, hw, true_and, false_and, ne_eq, not_true, not_false_eq_true, or_false,
        false_or] at ht ht' hs hs'
      rw [← ht, ← hs, hnew, hnew']
      exact iff_of_false (Nat.lt_asymm (older ht')) (Nat.lt_asymm (older' hs'))
    · simp only [hu, hw, true_and, false_and, ne_eq, not_true, not_false_eq_true, or_false,
        false_or] at ht ht' hs hs'
      rw [← ht', ← hs', hnew, hnew']
      exact iff_of_true (older ht) (older' hs)
    · simp only [hu, hw, true_and, false_and, ne_eq, not_false_eq_true, false_or] at ht ht' hs hs'
      exact h.order u w t t' s s' ht ht' hs hs'

end Claims.Alike

end RentalDesk
