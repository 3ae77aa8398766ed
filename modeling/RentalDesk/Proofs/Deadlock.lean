import Mathlib.Logic.Relation
import RentalDesk.Proofs.AppendOnly
import RentalDesk.Proofs.Descent
import RentalDesk.Proofs.Hall
import RentalDesk.Proofs.Interchange.Lines

/-!
# No deadlock

Since everybody asks for rows in descending order, whoever waits for a row that somebody holds
waits for a row that is below all rows of his own. So nobody ever waits for himself, however many
others are between. If somebody waits for a row, then going from each row that is waited for to the
row that its holder waits for leads to a row that is free, or to a holder who does not wait.
-/

namespace RentalDesk

open Script

/-! ## What a session has asked for -/

/-- The rows that a session has asked for, the latest first, after one more deed. -/
def Deed.asks (asked : List RowKey) : Deed → List RowKey
  | .passed key | .asked key => key :: asked
  | _ => asked

/-- The session goes on by the deed, and does not give up. -/
def Deed.isOnward : Deed → Bool
  | .gaveUp _ => false
  | _ => true

theorem Shop.held_perform (shop : Shop) (writes : WriteSet) (action : Action) :
    (shop.perform writes action).2.2.held = if action.frees then [] else writes.held := by
  cases action
  case updateItem item =>
      exact held_staged fun w hw => by rw [(WriteSet.stageItem_eq_ok hw).2]; rfl
  case updateRental rental =>
      exact held_staged fun w hw => by rw [(WriteSet.stageRental_eq_ok hw).2]; rfl
  case updateFee fee =>
      refine held_staged fun w hw => ?_
      obtain ⟨_, -, hw⟩ := stageFee_of_bind hw
      rw [(WriteSet.stageFee_eq_ok hw).2]
      rfl
  case registerItem item => rw [writes_registerItem]; rfl
  all_goals rfl

namespace Session

variable {ρ : Type} {shop shop' : Shop} {s s' : Session ρ} {deed : Deed} {d : Descent}
  {asked : List RowKey}

/-- The session goes on descending. It holds rows that it has asked for. -/
structure Descends (s : Session ρ) (d : Descent) (asked : List RowKey) : Prop where
  follows : s.Follows Descent.discipline d fun _ d' => d'.Ended
  asked : asked = (s.wait?.map (·.1.key)).toList ++ d.asked
  held : ∀ t ∈ s.writes.held, t.key ∈ d.asked
  free : d.holding = false → s.writes.held = []

theorem descends_start {task : Task ρ} (h : task.Descends .start) :
    (start task).Descends .start [] := ⟨h, rfl, nofun, fun _ => rfl⟩

theorem Descends.orderly (h : s.Descends d asked) :
    asked.Pairwise fun later earlier => compare later earlier = .lt := by
  rw [h.asked]
  obtain ⟨writes, stage⟩ := s
  cases stage with
  | running task => exact Task.Descends.orderly h.follows
  | waiting ticket deadline next =>
      exact Task.Descends.orderly (h.follows false ⟨ticket.key :: d.asked, _⟩ rfl)

/-- Whoever waits for a row has only rows above it. -/
theorem Descends.below (h : s.Descends d asked) {ticket t : Ticket} {deadline : Nat}
    (waits : s.wait? = some (ticket, deadline)) (ht : t ∈ s.writes.held) :
    compare ticket.key t.key = .lt := by
  have orderly := h.orderly
  rw [h.asked, waits] at orderly
  exact (List.pairwise_cons.1 orderly).1 t.key (h.held t ht)

/-- Whoever is done has given everything back. -/
theorem Descends.done (h : s.Descends d asked) {a : ρ} (result : s.result? = some a) :
    s.writes.held = [] := h.free (h.follows.ends result).2

theorem Step.descends (step : Step shop s deed shop' s') (h : s.Descends d asked) :
    ∃ d', s'.Descends d' (deed.asks asked) := by
  obtain ⟨follows, rfl, held, free⟩ := h
  cases step with
  | @act writes action next =>
      refine ⟨d.after action, follows.2 _ _ rfl, rfl, fun t ht => ?_, fun hfree => ?_⟩
      · rw [Shop.held_perform] at ht
        split at ht
        · cases ht
        · exact held t ht
      · rw [Shop.held_perform]
        split
        · rfl
        · next keeps =>
            rw [Descent.after_of_not_frees (Bool.eq_false_iff.2 keeps)] at hfree
            exact free hfree
  | @pass writes key next holds =>
      refine ⟨⟨key :: d.asked, d.holding || true⟩, follows true _ rfl, rfl, fun t ht => ?_, ?_⟩
      · exact List.mem_cons_of_mem _ (held t ht)
      · exact fun hfree => by simp at hfree
  | ask holds => exact ⟨d, follows, rfl, held, free⟩
  | @take writes ticket deadline next locks granted =>
      refine ⟨⟨ticket.key :: d.asked, d.holding || true⟩, follows true _ rfl, rfl,
        fun t ht => ?_, ?_⟩
      · rcases List.mem_append.1 ht with ht | ht
        · exact List.mem_cons_of_mem _ (held t ht)
        · rw [List.mem_singleton.1 ht]
          exact List.mem_cons_self
      · exact fun hfree => by simp at hfree
  | @giveUp writes ticket deadline next =>
      refine ⟨⟨ticket.key :: d.asked, d.holding || false⟩, follows false _ rfl, rfl,
        fun t ht => List.mem_cons_of_mem _ (held t ht), fun hfree => free ?_⟩
      rwa [Bool.or_false] at hfree

end Session

/-! ## The floor -/

section

variable {ν ρ : Type} [DecidableEq ν]

/-- The rows that everybody has asked for, the latest first, after one more event. -/
def Event.asks (asked : ν → List RowKey) : Event ν ρ → ν → List RowKey
  | .comes v _ => Function.update asked v []
  | .does v deed => Function.update asked v (deed.asks (asked v))
  | _ => asked

/-- The rows that everybody has asked for since he came, the latest first. -/
def rowRequests (events : List (Event ν ρ)) : ν → List RowKey := events.foldl Event.asks fun _ => []

/-- Whoever comes asks for rows in descending order. -/
def Event.Descends : Event ν ρ → Prop
  | .comes _ task => task.Descends .start
  | _ => True

end

namespace Floor

variable {ν ρ : Type} {f g : Floor ν ρ} {asked : ν → List RowKey} {e : Event ν ρ}
  {events : List (Event ν ρ)} {v w : ν} {key other : RowKey}

/-- The session waits for the row. -/
def Awaits (f : Floor ν ρ) (v : ν) (key : RowKey) : Prop :=
  ∃ s ticket deadline, f.sessions v = some s ∧ s.wait? = some (ticket, deadline) ∧ ticket.key = key

/-- The session holds the lock of the row. -/
def Holds (f : Floor ν ρ) (v : ν) (key : RowKey) : Prop :=
  ∃ s, f.sessions v = some s ∧ s.writes.locks key = true

theorem awaits_iff : f.Awaits v key ↔
    (f.sessions v).any (fun s => s.wait?.any fun wait => wait.1.key = key) = true := by
  simp [Awaits, Option.any_eq_true]

theorem holds_iff : f.Holds v key ↔ (f.sessions v).any (fun s => s.writes.locks key) = true := by
  simp [Holds, Option.any_eq_true]

instance : Decidable (f.Awaits v key) := decidable_of_iff' _ awaits_iff

instance : Decidable (f.Holds v key) := decidable_of_iff' _ holds_iff

/-- Everybody goes on descending. -/
structure Descending (f : Floor ν ρ) (asked : ν → List RowKey) : Prop where
  serves : f.shop.locks.Serves f.claims
  sessions : ∀ v s, f.sessions v = some s → ∃ d, s.Descends d (asked v)
  orderly : ∀ v, (asked v).Pairwise fun later earlier => compare later earlier = .lt

theorem Descending.below (h : f.Descending asked) (awaits : f.Awaits v key)
    (holds : f.Holds v other) : compare key other = .lt := by
  obtain ⟨s, ticket, deadline, present, waits, rfl⟩ := awaits
  obtain ⟨s', present', locks⟩ := holds
  obtain rfl := Option.some.inj (present.symm.trans present')
  obtain ⟨t, ht, rfl⟩ := WriteSet.locks_iff.1 locks
  obtain ⟨d, descends⟩ := h.sessions v s present
  exact descends.below waits ht

section

variable [DecidableEq ν]

/-- One session takes a step, and the others stay as they are. -/
theorem Descending.put {shop : Shop} {s : Session ρ} {d : Descent} {rows : List RowKey}
    (h : f.Descending asked) (serves : (f.put v shop s).shop.locks.Serves (f.put v shop s).claims)
    (descends : s.Descends d rows) :
    (f.put v shop s).Descending (Function.update asked v rows) where
  serves := serves
  sessions w u hu := by
    by_cases hw : w = v
    · subst hw
      obtain rfl := Option.some.inj ((put_sessions_self ..).symm.trans hu)
      rw [Function.update_self]
      exact ⟨d, descends⟩
    · rw [put_sessions_of_ne f hw] at hu
      rw [Function.update_of_ne hw]
      exact h.sessions w u hu
  orderly w := by
    by_cases hw : w = v
    · subst hw
      rw [Function.update_self]
      exact descends.orderly
    · rw [Function.update_of_ne hw]
      exact h.orderly w

theorem Descending.step (h : f.Descending asked) (step : f.Step e g) (descends : e.Descends) :
    g.Descending (e.asks asked) := by
  have serves := step.serves h.serves
  cases step with
  | comes absent => exact h.put serves (Session.descends_start descends)
  | @does v s s' deed shop present step =>
      obtain ⟨d, hs⟩ := h.sessions v s present
      obtain ⟨d', hs'⟩ := step.descends hs
      exact h.put serves hs'
  | @leaves v s present =>
      refine ⟨serves, fun w u hu => ?_, h.orderly⟩
      by_cases hw : w = v
      · subst hw
        cases (remove_sessions_self ..).symm.trans hu
      · rw [remove_sessions_of_ne f hw] at hu
        exact h.sessions w u hu
  | turns => exact ⟨serves, h.sessions, h.orderly⟩

theorem Run.descending {shop : Shop} (unlocked : shop.locks = .empty)
    (run : (ofShop shop).Run events g) (descends : ∀ e ∈ events, e.Descends) :
    g.Descending (rowRequests events) := by
  induction run with
  | nil =>
      refine ⟨?_, nofun, fun _ => .nil⟩
      rw [show (ofShop shop : Floor ν ρ).shop.locks = .empty from unlocked]
      exact .empty
  | @snoc events g g' e run step ih =>
      rw [List.forall_mem_append] at descends
      rw [rowRequests, List.foldl_append]
      exact (ih descends.1).step step (descends.2 e List.mem_cons_self)

end

/-! ## Rows that are free -/

theorem holds_of_claims {t : Ticket} (ht : t ∈ (f.claims v).held) : f.Holds v t.key := by
  cases present : f.sessions v with
  | none =>
      rw [claims, present] at ht
      cases ht
  | some s =>
      rw [claims_of_session present] at ht
      exact ⟨s, present, WriteSet.locks_iff.2 ⟨t, ht, rfl⟩⟩

theorem session_of_waiting {t : Ticket} (ht : (f.claims v).waiting = some t) :
    ∃ s deadline, f.sessions v = some s ∧ s.wait? = some (t, deadline) := by
  cases present : f.sessions v with
  | none =>
      rw [claims, present] at ht
      cases ht
  | some s =>
      rw [claims_of_session present] at ht
      obtain ⟨⟨ticket, deadline⟩, waits, rfl⟩ := Option.map_eq_some_iff.1 ht
      exact ⟨s, deadline, rfl, waits⟩

/-- If a row that is waited for is held by nobody, it can be granted to somebody. -/
theorem exists_granted (serves : f.shop.locks.Serves f.claims) (awaits : f.Awaits v key)
    (free : ∀ w, ¬ f.Holds w key) :
    ∃ w s ticket deadline, f.sessions w = some s ∧ s.wait? = some (ticket, deadline) ∧
      ticket.key = key ∧ (f.shop.locks.grant? ticket).isSome := by
  obtain ⟨s, t, deadline, present, waits, rfl⟩ := awaits
  have hv : (f.claims v).waiting = some t := by
    rw [claims_of_session present, Session.claims, waits, Option.map_some]
  have ht : t ∈ (f.claims v).tickets := Claims.mem_tickets.2 (.inr hv)
  have holder : (f.shop.locks.mutex t.mutex).holder = none := by
    refine Option.eq_none_iff_forall_not_mem.2 fun n hn => ?_
    obtain ⟨w, u, hu, hmutex, -⟩ := (serves.holder _ n).1 hn
    have hkey := (serves.mutex_eq_iff (Claims.mem_tickets.2 (.inl hu)) ht).1 hmutex
    exact free w (hkey ▸ holds_of_claims hu)
  have queued := (serves.queue t.mutex t.number).2 ⟨v, t, hv, rfl, rfl⟩
  cases line : (f.shop.locks.mutex t.mutex).queue with
  | nil =>
      rw [line] at queued
      cases queued
  | cons first rest =>
      obtain ⟨w, u, hu, hmutex, rfl⟩ := (serves.queue t.mutex first).1 (line ▸ List.mem_cons_self)
      obtain ⟨s', deadline', present', waits'⟩ := session_of_waiting hu
      have hkey := (serves.mutex_eq_iff (Claims.mem_tickets.2 (.inr hu)) ht).1 hmutex
      have granted : (f.shop.locks.mutex u.mutex).grant? u.number = some ⟨some u.number, rest⟩ := by
        rw [hmutex, Mutex.grant?, holder, line]
        exact if_pos rfl
      refine ⟨w, s', u, deadline', present', waits', hkey, ?_⟩
      rw [RowLocks.grant?, granted, Option.map_some, Option.isSome_some]

/-! ## Going on -/

variable [DecidableEq ν]

/-- The session can take its next step, without giving up. -/
def GoesOn (f : Floor ν ρ) (v : ν) : Prop :=
  ∃ deed g, deed.isOnward = true ∧ f.Step (.does v deed) g

/-- Whoever is neither done nor waits for a row can go on. -/
theorem goesOn {writes : WriteSet} {task : Task ρ}
    (present : f.sessions v = some ⟨writes, .running task⟩) (undone : ∀ a, task ≠ .done a) :
    f.GoesOn v := by
  cases task with
  | done a => exact absurd rfl (undone a)
  | act action next => exact ⟨_, _, rfl, .does present .act⟩
  | acquire key next =>
      by_cases holds : writes.holds key
      · exact ⟨_, _, rfl, .does present (.pass holds)⟩
      · exact ⟨_, _, rfl, .does present (.ask holds)⟩

end Floor

/-! ## The hall -/

namespace Hall

variable {ν ρ : Type} {h : Hall ν ρ} {medium : Medium} {asked : ν → List RowKey} {v w : ν}
  {key : RowKey}

/-- Whom a session waits for: the holder of the row that it has asked for, or whoever is inside the
lock of the tables when it cannot enter. -/
inductive WaitsFor (medium : Medium) (h : Hall ν ρ) : ν → ν → Prop
  | row {v w : ν} {key : RowKey} (awaits : h.floor.Awaits v key) (holds : h.floor.Holds w key) :
      WaitsFor medium h v w
  | tables {v w : ν} {s : Session ρ} {access other : Access} (present : h.floor.sessions v = some s)
      (needs : s.access? medium = some access) (outside : h.inside v = none)
      (inside : h.inside w = some other) (refused : access.admits other = false) :
      WaitsFor medium h v w

/-- Whoever is inside waits for no row. -/
theorem Kept.not_awaits (kept : h.Kept medium) {access : Access}
    (inside : h.inside v = some access) : ¬ h.floor.Awaits v key := by
  rintro ⟨s, ticket, deadline, present, waits, -⟩
  obtain ⟨s', present', needs⟩ := kept.acts v access inside
  obtain rfl := Option.some.inj (present.symm.trans present')
  obtain ⟨writes, stage⟩ := s
  cases stage with
  | running task => cases waits
  | waiting ticket deadline next => cases needs

/-- Whoever is inside waits for nobody. -/
theorem Kept.not_waitsFor (kept : h.Kept medium) {access : Access}
    (inside : h.inside v = some access) : ¬ h.WaitsFor medium v w := by
  intro waits
  cases waits with
  | row awaits holds => exact kept.not_awaits inside awaits
  | tables present needs outside inside' refused =>
      rw [outside] at inside
      cases inside

/-- Where waiting leads to: to somebody inside, or to the holder of a row that is not above the one
that is waited for. -/
theorem reaches (kept : h.Kept medium) (descending : h.floor.Descending asked)
    (path : Relation.TransGen (h.WaitsFor medium) v w) :
    (∃ access, h.inside w = some access) ∨
      ∃ key other, h.floor.Awaits v key ∧ h.floor.Holds w other ∧ other.rank ≤ key.rank := by
  induction path with
  | single waits =>
      cases waits with
      | row awaits holds => exact .inr ⟨_, _, awaits, holds, Nat.le_refl _⟩
      | tables present needs outside inside refused => exact .inl ⟨_, inside⟩
  | tail path waits ih =>
      cases waits with
      | tables present needs outside inside refused => exact .inl ⟨_, inside⟩
      | row awaits holds =>
          rcases ih with ⟨access, inside⟩ | ⟨key, other, first, between, hle⟩
          · exact absurd awaits (kept.not_awaits inside)
          · have := RowKey.rank_lt (descending.below awaits between)
            exact .inr ⟨key, _, first, holds, by omega⟩

/-- Nobody waits for himself. -/
theorem acyclic (kept : h.Kept medium) (descending : h.floor.Descending asked) :
    ¬ Relation.TransGen (h.WaitsFor medium) v v := by
  intro path
  rcases reaches kept descending path with ⟨access, inside⟩ | ⟨key, other, awaits, holds, hle⟩
  · obtain ⟨w, waits, -⟩ := Relation.TransGen.head'_iff.1 path
    exact kept.not_waitsFor inside waits
  · have := RowKey.rank_lt (descending.below awaits holds)
    omega

variable [DecidableEq ν]

/-- The session can enter the lock of the tables, or take its next step without giving up. -/
def GoesOn (medium : Medium) (h : Hall ν ρ) (v : ν) : Prop :=
  ∃ i, h.Step medium (.enters v) i ∨
    ∃ deed, deed.isOnward = true ∧ h.Step medium (.occurs (.does v deed)) i

/-- A step on the floor, of somebody who is inside if he has to be. -/
theorem occurs_of_step {s : Session ρ} {deed : Deed} {g : Floor ν ρ}
    (present : h.floor.sessions v = some s) (step : h.floor.Step (.does v deed) g)
    (inside : h.inside v = s.access? medium) :
    ∃ i, h.Step medium (.occurs (.does v deed)) i := by
  refine ⟨_, .occurs step fun w other u heq hu => ?_⟩
  obtain ⟨rfl, -⟩ := Event.does.inj heq
  obtain rfl := Option.some.inj (present.symm.trans hu)
  exact inside

omit [DecidableEq ν] in
/-- Whoever needs no lock of the tables is not inside. -/
theorem Kept.inside_eq_none (kept : h.Kept medium) {s : Session ρ}
    (present : h.floor.sessions v = some s) (needs : s.access? medium = none) :
    h.inside v = none := by
  refine Option.eq_none_iff_forall_not_mem.2 fun access inside => ?_
  obtain ⟨s', present', needs'⟩ := kept.acts v access inside
  obtain rfl := Option.some.inj (present.symm.trans present')
  rw [needs] at needs'
  cases needs'

/-- Whoever is inside can act. -/
theorem Kept.goesOn (kept : h.Kept medium) {access : Access} (inside : h.inside v = some access) :
    h.GoesOn medium v := by
  obtain ⟨⟨writes, stage⟩, present, needs⟩ := kept.acts v access inside
  cases stage with
  | waiting ticket deadline next => cases needs
  | running task =>
      cases task with
      | done a => cases needs
      | acquire key next => cases needs
      | act action next =>
          obtain ⟨i, step⟩ := occurs_of_step present (.does present .act) (inside.trans needs.symm)
          exact ⟨i, .inr ⟨_, rfl, step⟩⟩

/-- Whoever can go on at the floor can do so in the hall, unless he has to enter and somebody is
inside, who can go on. -/
theorem Kept.goesOn_or_waitsFor (kept : h.Kept medium) {s : Session ρ}
    (present : h.floor.sessions v = some s) (goes : h.floor.GoesOn v) :
    h.GoesOn medium v ∨
      ∃ w, (h.inside w).isSome ∧ h.WaitsFor medium v w ∧ h.GoesOn medium w := by
  obtain ⟨deed, g, onward, step⟩ := goes
  cases needs : s.access? medium with
  | none =>
      have outside := kept.inside_eq_none present needs
      obtain ⟨i, step⟩ := occurs_of_step present step (outside.trans needs.symm)
      exact .inl ⟨i, .inr ⟨deed, onward, step⟩⟩
  | some access =>
      cases inside : h.inside v with
      | some other => exact .inl (kept.goesOn inside)
      | none =>
          by_cases admitted : ∀ w other, h.inside w = some other → access.admits other = true
          · exact .inl ⟨_, .inl (.enters present needs inside admitted)⟩
          · push Not at admitted
            obtain ⟨w, other, hw, refused⟩ := admitted
            refine .inr ⟨w, by rw [hw]; rfl, ?_, kept.goesOn hw⟩
            exact .tables present needs inside hw (Bool.eq_false_iff.2 refused)

/-- The state of a hall in which nobody is stuck. -/
structure Flows (medium : Medium) (h : Hall ν ρ) (asked : ν → List RowKey) : Prop where
  /-- Everybody has asked for rows in descending order. -/
  requests : ∀ v, (asked v).Pairwise fun later earlier => compare later earlier = .lt
  /-- Nobody waits for a row inside the lock of the tables. -/
  tables : ∀ v key, (h.inside v).isSome → ¬ h.floor.Awaits v key
  /-- Nobody waits for himself, however many are between. -/
  acyclic : ∀ v, ¬ Relation.TransGen (h.WaitsFor medium) v v
  /-- If somebody waits for a row, then a row that is waited for is free and can be granted, or
  somebody holds a row, waits for none and can take his next step. If he has to enter the lock of
  the tables for it, he may have to let somebody out first, who can take his. -/
  progress : ∀ v key, h.floor.Awaits v key →
    (∃ w ticket i, h.floor.Awaits w ticket.key ∧ (∀ u, ¬ h.floor.Holds u ticket.key) ∧
      h.Step medium (.occurs (.does w (.took ticket))) i) ∨
    ∃ w, (∃ row, h.floor.Holds w row) ∧ (∀ row, ¬ h.floor.Awaits w row) ∧ h.floor.GoesOn w ∧
      (h.GoesOn medium w ∨
        ∃ u, (h.inside u).isSome ∧ h.WaitsFor medium w u ∧ h.GoesOn medium u)

/-- A row that is waited for leads to one that can be granted, or to somebody who can go on. The
induction is on the row: its holder waits for a lower one, if he waits at all. -/
theorem progress (kept : h.Kept medium) (descending : h.floor.Descending asked)
    (awaits : h.floor.Awaits v key) :
    (∃ w ticket i, h.floor.Awaits w ticket.key ∧ (∀ u, ¬ h.floor.Holds u ticket.key) ∧
      h.Step medium (.occurs (.does w (.took ticket))) i) ∨
    ∃ w, (∃ row, h.floor.Holds w row) ∧ (∀ row, ¬ h.floor.Awaits w row) ∧ h.floor.GoesOn w ∧
      (h.GoesOn medium w ∨
        ∃ u, (h.inside u).isSome ∧ h.WaitsFor medium w u ∧ h.GoesOn medium u) := by
  induction hrank : key.rank using Nat.strong_induction_on generalizing v key with
  | _ rank ih =>
    subst hrank
    by_cases held : ∃ w, h.floor.Holds w key
    · obtain ⟨w, holds⟩ := held
      by_cases waits : ∃ row, h.floor.Awaits w row
      · obtain ⟨row, waits⟩ := waits
        exact ih row.rank (RowKey.rank_lt (descending.below waits holds)) waits rfl
      · refine .inr ⟨w, ⟨key, holds⟩, not_exists.1 waits, ?_⟩
        obtain ⟨⟨writes, stage⟩, present, locks⟩ := holds
        cases stage with
        | waiting ticket deadline next => exact absurd ⟨_, _, _, _, present, rfl, rfl⟩ waits
        | running task =>
            have goes : h.floor.GoesOn w := by
              refine Floor.goesOn present ?_
              rintro a rfl
              obtain ⟨d, descends⟩ := descending.sessions w _ present
              obtain ⟨t, ht, -⟩ := WriteSet.locks_iff.1 locks
              rw [descends.done rfl] at ht
              cases ht
            exact ⟨goes, kept.goesOn_or_waitsFor present goes⟩
    · have free := not_exists.1 held
      obtain ⟨w, ⟨writes, stage⟩, ticket, deadline, present, waits, rfl, granted⟩ :=
        Floor.exists_granted descending.serves awaits free
      cases stage with
      | running task => cases waits
      | waiting ticket' deadline' next =>
          cases waits
          obtain ⟨locks, granted⟩ := Option.isSome_iff_exists.1 granted
          obtain ⟨i, step⟩ := occurs_of_step present (.does present (.take granted))
            (kept.inside_eq_none present rfl)
          exact .inl ⟨w, ticket, i, ⟨_, _, _, present, rfl, rfl⟩, free, step⟩

/-- Any number of items are registered, items rented, fees paid and rows listed at the same time, on
either medium. Calls may fail, sessions give up waiting and be dropped at any time. Then nobody is
ever stuck. -/
theorem Run.flows {ν : Type} [DecidableEq ν] (terms : Terms) {shop : Shop}
    {passages : List (Passage ν Answer)} {h : Hall ν Answer} (unlocked : shop.locks = .empty)
    (run : (ofFloor (.ofShop shop)).Run terms.medium passages h)
    (served : ∀ e ∈ Passage.events passages, e.Served terms) :
    h.Flows terms.medium (rowRequests (Passage.events passages)) := by
  have kept := run.kept (kept_ofFloor _)
  have descending := run.floor.descending unlocked fun e he => by
    have := served e he
    cases e with
    | comes v task =>
        obtain ⟨service, rfl⟩ := this
        exact service.descends terms
    | _ => trivial
  constructor
  · exact descending.orderly
  · intro v key inside
    obtain ⟨access, inside⟩ := Option.isSome_iff_exists.1 inside
    exact kept.not_awaits inside
  · exact fun v => acyclic kept descending
  · exact fun v key => progress kept descending

end Hall

/-- While a fee is being paid, somebody else wants to pay it too, somebody wants the item, and
somebody is about to list the items. -/
def crowd : List (Move Nat Answer) :=
  servings ⟨.standard, .memory⟩
    [(0, .register (.new 1 "Heat")), (1, .call (.rent 7 1)), (2, .call (.pay 1 7)),
      (3, .call (.pay 1 8)), (4, .call (.rent 8 1)), (5, .query .listItems)]
    [(0, 5), (1, 30), (2, 15), (3, 5), (4, 10), (5, 1)] []

theorem Hall.Run.flows_crowd :
    let start := Floor.ofShop (Shop.opened (.empty .memory) .fresh 100 .epoch)
    let h : Hall Nat Answer :=
      ⟨(start.follow crowd).2, Function.update (fun _ => none) 5 (some .shared)⟩
    h.floor.Awaits 3 (.fee 1) ∧ h.floor.Awaits 4 (.item 1) ∧ h.floor.Holds 2 (.item 1) ∧
      ∃ passages, (Hall.ofFloor start).Run .memory passages h ∧
        h.Flows .memory (rowRequests (Passage.events passages)) := by
  intro start h
  refine ⟨by decide +kernel, by decide +kernel, by decide +kernel, ?_⟩
  have lists : ((start.follow crowd).2.sessions 5).bind (Session.access? .memory) =
      some .shared := by decide +kernel
  obtain ⟨s, present, needs⟩ := Option.bind_eq_some_iff.1 lists
  obtain ⟨passages, hevents, run⟩ := Hall.run_of_floor .memory (start.run_follow crowd)
  have entered : (Hall.ofFloor start).Run .memory (passages ++ [.enters 5]) h :=
    run.snoc (Hall.enters_ofFloor present needs)
  refine ⟨_, entered, Hall.Run.flows ⟨.standard, .memory⟩ rfl entered fun e he => ?_⟩
  rw [Hall.events_append, hevents] at he
  rcases List.mem_append.1 he with he | he
  · exact served_follow he
  · cases he

end RentalDesk
