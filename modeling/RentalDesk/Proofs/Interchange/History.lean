import RentalDesk.Proofs.Interchange.Lines
import RentalDesk.Proofs.Interchange.Readings
import RentalDesk.Proofs.Schedule
import RentalDesk.Proofs.Turns

/-!
# One history on either medium

The history of a store is a list of occasions: transactions make calls, which go on step by step and
may have to wait for rows until a deadline; transactions are dropped at any moment; and between
their steps snapshots are read, items are registered and time passes. The same history can be gone
through with the rows in memory and with the rows in an archive, on two floors that stay alike:
every call returns the same on both, and both stores hold the same tables after every occasion, up
to the sign of zeros.

A transaction makes its next call when the last one has returned. An item is registered while nobody
holds its row. Somebody who waits for a row that was let go has been handed it already, so for a
registration it is not free either.
-/

namespace RentalDesk

/-- An occasion in the history of a store. Transactions go by names. -/
inductive Occasion (ν : Type) where
  /-- A transaction makes a call; its first call begins it. -/
  | calls (name : ν) (move : Script.Move)
  /-- The call of a transaction goes on, unless it waits for a row that is not free. -/
  | goesOn (name : ν)
  /-- The wait for a row ends because it has lasted until its deadline. -/
  | timesOut (name : ν)
  | drops (name : ν)
  | reads (reading : Reading)
  /-- An item is registered, if its row is free. -/
  | registers (item : Item)
  | passes (millis : Nat)

/-- The step of a session whose wait has lasted until its deadline. -/
def Session.timeOut? {ρ : Type} (shop : Shop) (s : Session ρ) : Option (Deed × Shop × Session ρ) :=
  match s.stage with
  | .running _ => none
  | .waiting _ deadline _ => if deadline ≤ shop.timer then s.giveUp? shop else none

namespace Floor

variable {ν : Type}

/-- A store that has just been opened, with nobody at work on it. -/
def fresh (medium : Medium) (lockWait : Nat) (clock : Instant) : Floor ν Script.Answer :=
  ofShop (.opened (.empty medium) .fresh lockWait clock)

/-- Does a task in one go, for nobody on the floor. -/
def atOnce (f : Floor ν Script.Answer) (task : Task Script.Answer) :
    Floor ν Script.Answer × Option Script.Answer :=
  let (shop, session) := Session.advance f.shop .empty task
  ({ f with shop }, session.result?)

variable [DecidableEq ν]

/-- The floor after a step of a transaction, and what its call returned by that. -/
def stepOf (f : Floor ν Script.Answer) (v : ν)
    (step : Shop → Session Script.Answer → Option (Deed × Shop × Session Script.Answer)) :
    Floor ν Script.Answer × Option Script.Answer :=
  match (f.sessions v).bind (step f.shop) with
  | some (_, shop, session) => (f.put v shop session, session.result?)
  | none => (f, none)

/-- The floor after a transaction has made a call. -/
def call (f : Floor ν Script.Answer) (v : ν) (move : Script.Move) : Floor ν Script.Answer :=
  match f.sessions v with
  | none => f.put v f.shop (.start move.task)
  | some s =>
    if s.result?.isSome then f.put v f.shop { s with stage := .running move.task } else f

/-- The floor after a transaction was dropped. -/
def dropped (f : Floor ν Script.Answer) (v : ν) : Floor ν Script.Answer :=
  match f.sessions v with
  | none => f
  | some s => f.remove v (s.drop f.shop)

/-- Goes through an occasion: the floor after it, and what was returned or shown. What is not
possible is left out. -/
def occur (terms : Terms) (f : Floor ν Script.Answer) :
    Occasion ν → Floor ν Script.Answer × Option Script.Answer
  | .calls v move => (f.call v move, none)
  | .goesOn v => f.stepOf v Session.goOn?
  | .timesOut v => f.stepOf v Session.timeOut?
  | .drops v => (f.dropped v, none)
  | .reads reading => f.atOnce (reading.task terms)
  | .registers item =>
    if f.shop.locks.isFree (.item item.id) then f.atOnce (registration terms item) else (f, none)
  | .passes millis => ({ f with shop := { f.shop with timer := f.shop.timer + millis } }, none)

/-- The floor after a history. -/
def after (terms : Terms) (f : Floor ν Script.Answer) (history : List (Occasion ν)) :
    Floor ν Script.Answer :=
  history.foldl (fun f o => (f.occur terms o).1) f

end Floor

/-! ## Alike floors -/

/-- Where two sessions stand that go alike. -/
inductive Stage.Alike : Stage Script.Answer → Stage Script.Answer → Prop
  | running {t u : Task Script.Answer} (h : Task.Alike Script.Answer.plain t u) :
      Alike (.running t) (.running u)
  | waiting {t u : Ticket} {deadline : Nat} {next next' : Bool → Task Script.Answer}
      (key : t.key = u.key)
      (h : ∀ granted, Task.Alike Script.Answer.plain (next granted) (next' granted)) :
      Alike (.waiting t deadline next) (.waiting u deadline next')

structure Session.Alike (m a : Session Script.Answer) : Prop where
  writes : m.writes.Alike a.writes
  stage : m.stage.Alike a.stage

/-- Sessions that go alike return the same. -/
theorem Session.Alike.result? {m a : Session Script.Answer} (h : m.Alike a) :
    m.result?.map Script.Answer.plain = a.result?.map Script.Answer.plain := by
  obtain ⟨writes, stage⟩ := m
  obtain ⟨writes', stage'⟩ := a
  obtain ⟨-, hstage⟩ := h
  cases hstage with
  | waiting key _ => rfl
  | running task =>
      cases task with
      | done h => exact congrArg some h
      | act _ => rfl
      | acquire _ => rfl

namespace Floor

variable {ν : Type}

/-- The row locks and the claims on a floor are in step, and queues are in order. -/
structure Sound (f : Floor ν Script.Answer) : Prop where
  serves : f.shop.locks.Serves f.claims
  queued : f.shop.locks.Queued

/-- A floor with its rows in memory and one with the same rows in an archive. -/
structure Alike (m a : Floor ν Script.Answer) : Prop where
  shop : m.shop.Alike a.shop
  calm : m.shop.failing = []
  sessions : ∀ v, Option.Rel Session.Alike (m.sessions v) (a.sessions v)
  claims : Claims.Alike m.claims a.claims
  memory : m.Sound
  archive : a.Sound

variable [DecidableEq ν] {m a f g : Floor ν Script.Answer}

theorem Step.sound {e : Event ν Script.Answer} (step : f.Step e g) (h : f.Sound) : g.Sound := by
  refine ⟨step.serves h.serves, ?_⟩
  cases step with
  | comes absent => exact h.queued
  | @does v s s' deed shop present step =>
      cases step with
      | @act writes action next =>
          rcases f.shop.perform_locks writes action with ⟨hlocks, -⟩ | ⟨hlocks, -⟩ | ⟨hlocks, -⟩
          · rw [put_shop, hlocks]
            exact h.queued
          · rw [put_shop, hlocks]
            exact h.queued.giveBackAll _
          · rw [put_shop, hlocks]
            exact (h.queued.giveBackAll _).prune
      | pass holds => exact h.queued
      | ask holds => exact h.queued.request h.serves _
      | take granted => exact h.queued.grant granted
      | giveUp => exact h.queued.giveBack _
  | @leaves v s present =>
      rw [remove_shop, locks_drop]
      exact h.queued.giveBackAll _
  | turns => exact h.queued

/-- A session that makes its next call keeps the claims that it has. -/
theorem Sound.recall (h : f.Sound) {v : ν} {s : Session Script.Answer} (hs : f.sessions v = some s)
    (done : s.result?.isSome) {task : Task Script.Answer} :
    (f.put v f.shop { s with stage := .running task }).Sound := by
  have hclaims : (f.put v f.shop { s with stage := .running task }).claims = f.claims := by
    rw [claims_put]
    refine update_claims ((claims_of_session hs).trans ?_)
    obtain ⟨writes, stage⟩ := s
    cases stage with
    | running task => rfl
    | waiting ticket deadline next => cases done
  exact ⟨hclaims ▸ h.serves, h.queued⟩

/-- What a session does next on both floors: nothing, or steps that leave everything alike. -/
inductive Steps (m a : Floor ν Script.Answer) (v : ν) (s s' : Session Script.Answer) :
    Option (Deed × Shop × Session Script.Answer) →
      Option (Deed × Shop × Session Script.Answer) → Prop
  | stays : Steps m a v s s' none none
  | moves {d d' : Deed} {shop shop' : Shop} {r r' : Session Script.Answer}
      (memory : Session.Step m.shop s d shop r) (archive : Session.Step a.shop s' d' shop' r')
      (shops : shop.Alike shop') (sessions : r.Alike r')
      (claims : Claims.Alike (Function.update m.claims v r.claims)
        (Function.update a.claims v r'.claims)) :
      Steps m a v s s' (some (d, shop, r)) (some (d', shop', r'))

namespace Alike

theorem sessions_update (h : m.Alike a) (v : ν) {x y : Option (Session Script.Answer)}
    (hxy : Option.Rel Session.Alike x y) (w : ν) :
    Option.Rel Session.Alike (Function.update m.sessions v x w)
      (Function.update a.sessions v y w) := by
  by_cases hw : w = v
  · subst hw
    rwa [Function.update_self, Function.update_self]
  · rw [Function.update_of_ne hw, Function.update_of_ne hw]
    exact h.sessions w

omit [DecidableEq ν] in
/-- A transaction is open on both floors, or on neither. -/
theorem sessions_cases (h : m.Alike a) (v : ν) :
    (m.sessions v = none ∧ a.sessions v = none) ∨
      ∃ s s', m.sessions v = some s ∧ a.sessions v = some s' ∧ s.Alike s' := by
  have hrel := h.sessions v
  generalize m.sessions v = x at *
  generalize a.sessions v = y at *
  cases hrel with
  | none => exact .inl ⟨rfl, rfl⟩
  | some alike => exact .inr ⟨_, _, rfl, rfl, alike⟩

theorem stepOf (h : m.Alike a) (v : ν)
    {step : Shop → Session Script.Answer → Option (Deed × Shop × Session Script.Answer)}
    (steps : ∀ s s', m.sessions v = some s → a.sessions v = some s' → s.Alike s' →
      Steps m a v s s' (step m.shop s) (step a.shop s')) :
    (m.stepOf v step).1.Alike (a.stepOf v step).1 ∧
      (m.stepOf v step).2.map Script.Answer.plain =
        (a.stepOf v step).2.map Script.Answer.plain := by
  rw [Floor.stepOf, Floor.stepOf]
  rcases h.sessions_cases v with ⟨hs, hs'⟩ | ⟨s, s', hs, hs', alike⟩
  · rw [hs, hs']
    exact ⟨h, rfl⟩
  · have hsteps := steps s s' hs hs' alike
    rw [hs, hs', Option.bind_some, Option.bind_some]
    generalize step m.shop s = x at *
    generalize step a.shop s' = y at *
    cases hsteps with
    | stays => exact ⟨h, rfl⟩
    | @moves d d' shop shop' r r' memory archive shops sessions claims =>
        refine ⟨⟨shops, memory.clock_failing.2.trans h.calm, h.sessions_update v (.some sessions),
          ?_, (Step.does hs memory).sound h.memory, (Step.does hs' archive).sound h.archive⟩,
          sessions.result?⟩
        rw [claims_put, claims_put]
        exact claims

section

variable {v : ν} {s s' : Session Script.Answer} (hs : m.sessions v = some s)
  (hs' : a.sessions v = some s') (alike : s.Alike s')

include hs hs' alike

theorem steps_goOn (h : m.Alike a) : Steps m a v s s' (s.goOn? m.shop) (s'.goOn? a.shop) := by
  obtain ⟨writes, stage⟩ := s
  obtain ⟨writes', stage'⟩ := s'
  obtain ⟨hwrites, hstage⟩ := alike
  have hclaims := claims_of_session hs
  have hclaims' := claims_of_session hs'
  cases hstage with
  | running task =>
      cases task with
      | done h => exact .stays
      | @act action next next' hnext =>
          obtain ⟨hanswer, hshop, hafter⟩ := h.shop.perform hwrites action
          exact .moves .act .act hshop ⟨hafter, .running (hnext _ _ hanswer)⟩
            (h.claims.update v hafter.held rfl rfl)
      | @acquire key next next' hnext =>
          simp only [Session.goOn?, hwrites.holds_eq key]
          by_cases holds : writes'.holds key
          · rw [if_pos holds, if_pos holds]
            exact .moves (.pass (hwrites.holds_eq key ▸ holds)) (.pass holds) h.shop
              ⟨hwrites, .running (hnext true)⟩ (h.claims.update v hwrites.held rfl rfl)
          · rw [if_neg holds, if_neg holds]
            have hask := h.claims.ask h.memory.serves h.archive.serves v key
            rw [Claims.ask, Claims.ask, hclaims, hclaims'] at hask
            refine .moves (.ask (hwrites.holds_eq key ▸ holds)) (.ask holds)
              (h.shop.withLocks _ _) ⟨hwrites, ?_⟩ hask
            rw [h.shop.timer, h.shop.lockWait]
            exact .waiting rfl hnext
  | @waiting t u deadline next next' hkey hnext =>
      have hwaiting : (m.claims v).waiting = some t := by rw [hclaims]; rfl
      have hwaiting' : (a.claims v).waiting = some u := by rw [hclaims']; rfl
      have hgranted := h.claims.granted_eq h.memory.serves h.archive.serves h.memory.queued
        h.archive.queued hwaiting hwaiting'
      simp only [Session.goOn?]
      cases hm : m.shop.locks.grant? t with
      | none =>
          have ha : a.shop.locks.grant? u = none := by
            rw [hm] at hgranted
            exact Option.isSome_eq_false_iff.1 hgranted.symm |> Option.isNone_iff_eq_none.1
          rw [ha]
          exact .stays
      | some locks =>
          rw [hm] at hgranted
          obtain ⟨locks', ha⟩ := Option.isSome_iff_exists.1 hgranted.symm
          rw [ha]
          have hafter := hwrites.hold hkey
          exact .moves (.take hm) (.take ha) (h.shop.withLocks _ _) ⟨hafter, .running (hnext true)⟩
            (h.claims.update v hafter.held rfl rfl)

theorem steps_timeOut (h : m.Alike a) :
    Steps m a v s s' (s.timeOut? m.shop) (s'.timeOut? a.shop) := by
  obtain ⟨writes, stage⟩ := s
  obtain ⟨writes', stage'⟩ := s'
  obtain ⟨hwrites, hstage⟩ := alike
  cases hstage with
  | running task => exact .stays
  | @waiting t u deadline next next' hkey hnext =>
      simp only [Session.timeOut?, h.shop.timer]
      by_cases due : deadline ≤ a.shop.timer
      · rw [if_pos due, if_pos due]
        exact .moves .giveUp .giveUp (h.shop.withLocks _ _) ⟨hwrites, .running (hnext false)⟩
          (h.claims.update v hwrites.held rfl rfl)
      · rw [if_neg due, if_neg due]
        exact .stays

end

omit [DecidableEq ν] in
theorem fresh (lockWait : Nat) (clock : Instant) :
    Alike (ν := ν) (Floor.fresh .memory lockWait clock) (Floor.fresh .archive lockWait clock) where
  shop := ⟨⟨.empty, rfl, rfl⟩, rfl, rfl, rfl, rfl, rfl, rfl⟩
  calm := rfl
  sessions _ := .none
  claims := .nobody
  memory := ⟨.empty, .empty⟩
  archive := ⟨.empty, .empty⟩

/-- A call is made by a session that waits for nothing, so the claims stay as they are. -/
theorem call (h : m.Alike a) (v : ν) (move : Script.Move) :
    (m.call v move).Alike (a.call v move) := by
  rw [Floor.call, Floor.call]
  rcases h.sessions_cases v with ⟨hs, hs'⟩ | ⟨s, s', hs, hs', alike⟩
  · rw [hs, hs']
    refine ⟨h.shop, h.calm, h.sessions_update v (.some ⟨.empty, .running move.alike⟩), ?_,
      (Step.comes hs).sound h.memory, (Step.comes hs').sound h.archive⟩
    rw [claims_put, claims_put]
    exact h.claims.update v rfl rfl rfl
  · rw [hs, hs']
    have hresult := congrArg Option.isSome alike.result?
    rw [Option.isSome_map, Option.isSome_map] at hresult
    simp only [hresult]
    by_cases done : s'.result?.isSome
    · rw [if_pos done, if_pos done]
      refine ⟨h.shop, h.calm, h.sessions_update v (.some ⟨alike.writes, .running move.alike⟩), ?_,
        h.memory.recall hs (hresult ▸ done), h.archive.recall hs' done⟩
      rw [claims_put, claims_put]
      exact h.claims.update v alike.writes.held rfl rfl
    · rw [if_neg done, if_neg done]
      exact h

theorem dropped (h : m.Alike a) (v : ν) : (m.dropped v).Alike (a.dropped v) := by
  rw [Floor.dropped, Floor.dropped]
  rcases h.sessions_cases v with ⟨hs, hs'⟩ | ⟨s, s', hs, hs', alike⟩
  · rw [hs, hs']
    exact h
  · rw [hs, hs']
    have hshop : (s.drop m.shop).Alike (s'.drop a.shop) := by
      rw [drop_eq m.shop s, drop_eq a.shop s']
      exact h.shop.withLocks _ _
    refine ⟨hshop, ?_, h.sessions_update v .none, ?_, (Step.leaves hs).sound h.memory,
      (Step.leaves hs').sound h.archive⟩
    · rw [remove_shop, drop_eq m.shop s]
      exact h.calm
    · rw [claims_remove, claims_remove]
      exact h.claims.update v rfl rfl rfl

/-- A reading changes nothing. It shows the tables, in an archive without the sign of zeros. -/
theorem occur_reads (h : m.Alike a) {t : Tables} (store : m.shop.store = .memory t)
    (reading : Reading) (tariff : Tariff) :
    m.occur ⟨tariff, .memory⟩ (.reads reading) = (m, some (reading.shows t)) ∧
      a.occur ⟨tariff, .archive⟩ (.reads reading) = (a, some (reading.shows t).plain) := by
  obtain ⟨t', hm, ha⟩ := h.shop.store
  obtain rfl : t' = t := Store.memory.inj (hm.symm.trans store)
  have calm : a.shop.failing = [] := h.shop.failing.symm.trans h.calm
  simp only [Floor.occur, Floor.atOnce, reading.advance_memory tariff hm h.calm,
    reading.advance_archive tariff ha calm]
  exact ⟨rfl, rfl⟩

theorem reads (h : m.Alike a) (reading : Reading) (tariff : Tariff) :
    (m.occur ⟨tariff, .memory⟩ (.reads reading)).1.Alike
        (a.occur ⟨tariff, .archive⟩ (.reads reading)).1 ∧
      (m.occur ⟨tariff, .memory⟩ (.reads reading)).2.map Script.Answer.plain =
        (a.occur ⟨tariff, .archive⟩ (.reads reading)).2.map Script.Answer.plain := by
  obtain ⟨t, store, -⟩ := h.shop.store
  obtain ⟨hm, ha⟩ := h.occur_reads store reading tariff
  rw [hm, ha]
  exact ⟨h, congrArg some (reading.shows t).plain_plain.symm⟩

theorem registers (h : m.Alike a) (item : Item) (tariff : Tariff) :
    (m.occur ⟨tariff, .memory⟩ (.registers item)).1.Alike
        (a.occur ⟨tariff, .archive⟩ (.registers item)).1 ∧
      (m.occur ⟨tariff, .memory⟩ (.registers item)).2 =
        (a.occur ⟨tariff, .archive⟩ (.registers item)).2 := by
  obtain ⟨t, hm, ha⟩ := h.shop.store
  simp only [Floor.occur]
  rw [h.claims.isFree_eq h.memory.serves h.archive.serves]
  by_cases free : a.shop.locks.isFree (.item item.id)
  · obtain ⟨locks, granted⟩ := Option.isSome_iff_exists.1 free
    rw [if_pos free, if_pos free]
    simp only [Floor.atOnce, advance_registration_memory tariff item hm h.calm,
      advance_registration_archive tariff item ha (h.shop.failing ▸ h.calm) granted]
    exact ⟨⟨⟨⟨_, rfl, rfl⟩, h.shop.sequences, h.shop.lockWait, h.shop.timer, h.shop.clock,
      h.shop.failing, h.shop.returns⟩, h.calm, h.sessions, h.claims,
      ⟨h.memory.serves, h.memory.queued⟩, ⟨h.archive.serves.visit granted,
        ((h.archive.queued.request h.archive.serves _).grant granted).giveBack _⟩⟩, trivial⟩
  · rw [if_neg free, if_neg free]
    exact ⟨h, rfl⟩

/-- Every occasion leaves the floors alike, and the same is returned or shown. -/
theorem occur (h : m.Alike a) (tariff : Tariff) (o : Occasion ν) :
    (m.occur ⟨tariff, .memory⟩ o).1.Alike (a.occur ⟨tariff, .archive⟩ o).1 ∧
      (m.occur ⟨tariff, .memory⟩ o).2.map Script.Answer.plain =
        (a.occur ⟨tariff, .archive⟩ o).2.map Script.Answer.plain := by
  cases o with
  | calls v move => exact ⟨h.call v move, rfl⟩
  | goesOn v => exact h.stepOf v fun s s' hs hs' alike => steps_goOn hs hs' alike h
  | timesOut v => exact h.stepOf v fun s s' hs hs' alike => steps_timeOut hs hs' alike h
  | drops v => exact ⟨h.dropped v, rfl⟩
  | reads reading => exact h.reads reading tariff
  | registers item =>
      obtain ⟨alike, hanswer⟩ := h.registers item tariff
      exact ⟨alike, congrArg _ hanswer⟩
  | passes millis =>
      refine ⟨⟨⟨h.shop.store, h.shop.sequences, h.shop.lockWait, ?_, h.shop.clock, h.shop.failing,
        h.shop.returns⟩, h.calm, h.sessions, h.claims, ⟨h.memory.serves, h.memory.queued⟩,
        ⟨h.archive.serves, h.archive.queued⟩⟩, rfl⟩
      exact congrArg (· + millis) h.shop.timer

theorem after (h : m.Alike a) (tariff : Tariff) (history : List (Occasion ν)) :
    (m.after ⟨tariff, .memory⟩ history).Alike (a.after ⟨tariff, .archive⟩ history) := by
  induction history generalizing m a with
  | nil => exact h
  | cons o rest ih => exact ih (h.occur tariff o).1

end Alike

/-- What came of an occasion in memory and in an archive: the same was returned or shown, and both
hold the same tables, up to the sign of zeros. -/
structure Agrees (m a : Floor ν Script.Answer × Option Script.Answer) : Prop where
  answer : m.2.map Script.Answer.plain = a.2.map Script.Answer.plain
  tables : ∃ t files, m.1.shop.store = .memory t ∧ a.1.shop.store = .archive files ∧ files.Holds t

/-- Whatever has happened at a store so far, each occasion comes to the same whether the rows are
kept in memory or in an archive, except that an archive forgets the sign of a zero. -/
theorem interchangeable (tariff : Tariff) (lockWait : Nat) (clock : Instant)
    (history : List (Occasion ν)) (o : Occasion ν) :
    Agrees (((fresh .memory lockWait clock).after ⟨tariff, .memory⟩ history).occur
        ⟨tariff, .memory⟩ o)
      (((fresh .archive lockWait clock).after ⟨tariff, .archive⟩ history).occur
        ⟨tariff, .archive⟩ o) := by
  obtain ⟨alike, answer⟩ := ((Alike.fresh lockWait clock).after tariff history).occur tariff o
  obtain ⟨t, hm, ha⟩ := alike.shop.store
  exact ⟨answer, t, _, hm, ha, Archive.holds_ofTables t⟩

/-- A renter takes a film for a fee, and the transaction is committed. -/
def taken (amount : Decimal) : List (Occasion Unit) :=
  [.calls () (.insertRental ⟨5, 7, .epoch⟩), .goesOn (),
    .calls () (.insertFee ⟨1, amount, "start"⟩), .goesOn (),
    .calls () .commit, .goesOn (), .goesOn ()]

/-- The two are not the same in everything: memory shows the sign of a zero. -/
theorem not_identical : ¬ ∀ (tariff : Tariff) (lockWait : Nat) (clock : Instant)
    (history : List (Occasion Unit)) (o : Occasion Unit),
    (((fresh .memory lockWait clock).after ⟨tariff, .memory⟩ history).occur
        ⟨tariff, .memory⟩ o).2 =
      (((fresh .archive lockWait clock).after ⟨tariff, .archive⟩ history).occur
        ⟨tariff, .archive⟩ o).2 := by
  intro same
  let zero : Decimal := ⟨true, 0, 28, by decide, by decide⟩
  have hsame := same .standard 0 .epoch (taken zero) (.reads (.feesOfRenter 7))
  have alike := (Alike.fresh (ν := Unit) 0 .epoch).after .standard (taken zero)
  obtain ⟨hm, ha⟩ := alike.occur_reads rfl (.feesOfRenter 7) .standard
  rw [hm, ha] at hsame
  have hfees := Except.ok.inj (Script.Answer.fees.inj (Option.some.inj hsame))
  have hsigns := congrArg (List.map fun pair : Fee × Rental => pair.1.amount.negative) hfees
  cases hsigns

end Floor

end RentalDesk
