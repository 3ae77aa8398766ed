import RentalDesk.Proofs.Rights.Actions

/-!
# Rights in a run

A step of a session, its coming and its leaving keep what the rights come to, so it holds in every
run in which nobody stages a row with a right that is not sound. There no commit overwrites the work
of others. Two runs show that the condition is needed: in memory the registration of an item does
not wait for the lock of the item, and in both stores the identifier of a fee can be drawn while
somebody has the fee locked.
-/

namespace RentalDesk

open Script

namespace Floor.Guarded

variable {ν : Type} [DecidableEq ν] {medium : Medium} {f g : Floor ν Answer} {r : Rights ν} {v : ν}
  {shop : Shop} {s s' : Session Answer} {writes : WriteSet}

/-- Whoever is granted a row has the right to it as it is. Somebody else can have a right to the row
as well, but not a sound one if this one is sound. -/
theorem take (h : f.Guarded medium r) {ticket : Ticket} {deadline : Nat}
    {next : Bool → Task Answer} {locks : RowLocks}
    (present : f.sessions v = some ⟨writes, .waiting ticket deadline next⟩)
    (granted : f.shop.locks.grant? ticket = some locks) :
    (f.put v { f.shop with locks } ⟨writes.hold ticket, .running (next true)⟩).Guarded medium
      (r.gain v ticket.key ⟨f.shop.store.record? ticket.key, false⟩) := by
  have serves := serves_session h.locks present (.take granted)
  obtain ⟨phase, follows, covered, waits, entitled⟩ := h.sessions v _ present
  have unheld : ¬ writes.holds ticket.key := waits ticket deadline next rfl
  refine h.gain present rfl serves (fun _ => id)
    ⟨_, .running (follows true _ rfl) (covered.hold ticket) ?_⟩ ?_ (fun _ => id) ?_ ?_
  · intro last hlast
    cases phase with
    | ending => cases hlast
    | working previous =>
        obtain rfl := Phase.working.inj hlast
        have entitled := entitled previous rfl
        constructor
        case last =>
          rintro key hkey
          obtain rfl := Option.some.inj hkey
          simp
        case holds =>
          intro key hholds
          rw [Rights.gain_self]
          split
          · exact ⟨_, rfl⟩
          · next hne =>
              rw [WriteSet.holds_hold, Bool.or_eq_true, decide_eq_true_eq] at hholds
              exact entitled.holds key (hholds.resolve_right (Ne.symm hne))
        case staged =>
          intro key row hrow
          rw [Rights.gain_self]
          split
          · next hkey => exact absurd (hkey ▸ covered.staged key row hrow) unheld
          · exact entitled.staged key row hrow
  · intro key hlocks
    rw [WriteSet.locks_hold, hlocks, Bool.true_or]
  · exact ⟨fun _ => by simp, nofun, nofun, fun _ => rfl⟩
  · intro w right hw hright sound sound'
    obtain ⟨t, ht, stands⟩ := h.rights w _ right hright
    obtain ⟨_, keeps⟩ := h.sessions w t ht
    cases hinserted : right.inserted with
    | false =>
        obtain ⟨u, hu, hkey⟩ := WriteSet.locks_iff.1 (stands.locked hinserted)
        refine hw (serves.held_exclusive (t := u) (u := ticket) ?_ ?_ hkey)
        · rw [Function.update_of_ne hw, claims_of_session ht]
          exact hu
        · rw [Function.update_self]
          exact List.mem_append_right _ List.mem_cons_self
    | true =>
        have absent := (stands.kept sound').trans (stands.fresh hinserted).1
        rcases sound with hnot | hsome | ⟨-, hitem⟩
        · cases hnot
        · rw [absent] at hsome
          cases hsome
        · have hmem := stands.inserted hinserted
          cases hkey : ticket.key with
          | item id => exact keeps.covered.inserted id (hkey ▸ hmem)
          | rental id => rw [hkey] at hitem; cases hitem
          | fee id => rw [hkey] at hitem; cases hitem

/-- What a session does by going on with a row, asking for one or giving up leaves all rights alone.
-/
theorem wait (h : f.Guarded medium r) {phase : Phase} (present : f.sessions v = some s)
    (store : shop.store = f.shop.store) (sequences : shop.sequences = f.shop.sequences)
    (locks : shop.locks.Serves (Function.update f.claims v s'.claims))
    (writes : s'.writes = s.writes) (keeps : s'.Keeps medium (r v) phase) :
    (f.put v shop s').Guarded medium r :=
  h.still present store locks (fun _ => sequences ▸ id) ⟨phase, keeps⟩ (fun _ => writes ▸ id)
    fun _ => writes ▸ id

/-- A step of a session. -/
theorem does (h : f.Guarded medium r) {deed : Deed} (present : f.sessions v = some s)
    (step : Session.Step f.shop s deed shop s') (heeds : (Event.does v deed).Heeds medium f r) :
    (f.put v shop s').Guarded medium (r.after f.shop.store (Event.does (ρ := Answer) v deed)) := by
  have serves := serves_session h.locks present step
  obtain ⟨phase, follows, covered, waits, entitled⟩ := h.sessions v s present
  cases step with
  | act => exact h.act present heeds
  | take granted => exact h.take present granted
  | @pass writes key next holds =>
      refine h.wait present rfl rfl serves rfl (.running (follows true _ rfl) covered ?_)
      intro last hlast
      cases phase with
      | ending => cases hlast
      | working previous =>
          obtain rfl := Phase.working.inj hlast
          have entitled := entitled previous rfl
          exact ⟨fun other hother => Option.some.inj hother ▸ holds, entitled.holds,
            entitled.staged⟩
  | @ask writes key next holds =>
      refine h.wait present rfl rfl serves rfl ⟨follows, covered, ?_, entitled⟩
      rintro ticket deadline next' hstage
      cases hstage
      exact holds
  | @giveUp writes ticket deadline next =>
      refine h.wait present rfl rfl serves rfl (.running (follows false _ rfl) covered ?_)
      intro last hlast
      cases phase with
      | ending => cases hlast
      | working previous => exact entitled last hlast

/-- Whoever leaves gives his rights up. -/
theorem leaves (h : f.Guarded medium r) (present : f.sessions v = some s) :
    (f.remove v (s.drop f.shop)).Guarded medium (r.lose v) := by
  have serves := (Step.leaves present).serves h.locks
  have hshop := drop_eq f.shop s
  have hstore : (s.drop f.shop).store = f.shop.store := by rw [hshop]
  have hsequences : (s.drop f.shop).sequences = f.shop.sequences := by rw [hshop]
  constructor
  case store => rw [remove_shop, hstore, h.store]
  case locks => exact serves
  case behind =>
    intro key hkey
    rw [remove_shop, hstore] at hkey
    rw [remove_shop, hsequences]
    exact h.behind key hkey
  case sessions =>
    intro w t ht
    by_cases hw : w = v
    · subst hw
      cases (remove_sessions_self ..).symm.trans ht
    · rw [remove_sessions_of_ne f hw] at ht
      rw [r.lose_of_ne hw]
      exact h.sessions w t ht
  case rights =>
    intro w key right hright
    by_cases hw : w = v
    · subst hw
      rw [Rights.lose_self] at hright
      cases hright
    · rw [r.lose_of_ne hw] at hright
      obtain ⟨t, ht, stands⟩ := h.rights w key right hright
      refine ⟨t, (remove_sessions_of_ne f hw ..).trans ht, stands.mono ?_ (fun _ => ?_) id id⟩
      · rw [remove_shop, hsequences]
        exact id
      · rw [remove_shop, hstore]
  case apart =>
    intro w x key right right' hw hx
    by_cases hwv : w = v
    · subst hwv
      rw [Rights.lose_self] at hw
      cases hw
    · by_cases hxv : x = v
      · subst hxv
        rw [Rights.lose_self] at hx
        cases hx
      · rw [r.lose_of_ne hwv] at hw
        rw [r.lose_of_ne hxv] at hx
        exact h.apart w x key right right' hw hx

/-- Whoever comes has no rights yet. -/
theorem comes (h : f.Guarded medium r) {task : Task Answer} (absent : f.sessions v = none)
    (joins : (Event.comes v task).Joins medium) :
    (f.put v f.shop (.start task)).Guarded medium r := by
  obtain ⟨comer, tariff, rfl⟩ := joins
  have none_of : ∀ key, r v key = none := by
    intro key
    refine Option.eq_none_iff_forall_not_mem.2 fun right hright => ?_
    obtain ⟨s, hs, -⟩ := h.rights v key right hright
    cases absent.symm.trans hs
  have serves : f.shop.locks.Serves (Function.update f.claims v (Session.start
      (comer.task ⟨tariff, medium⟩)).claims) := by
    have hv : f.claims v = .none := by rw [claims, absent, Option.elim_none]
    rw [Session.claims_start, update_claims hv]
    exact h.locks
  refine h.put h.store serves h.behind (fun _ => id) (fun _ _ => rfl) (fun _ _ _ _ _ _ => rfl)
    ⟨.working none, .running ?_ .empty ?_⟩ ?_ ?_
  · exact (comer.orderly ⟨tariff, medium⟩ none).mono fun _ _ _ => trivial
  · rintro last hlast
    obtain rfl := Phase.working.inj hlast
    rw [show r v = fun _ => none from funext none_of]
    exact .empty
  · intro key right hright
    cases (none_of key).symm.trans hright
  · intro w key right right' _ hright
    cases (none_of key).symm.trans hright

theorem step {e : Event ν Answer} (h : f.Guarded medium r) (heeds : e.Heeds medium f r)
    (step : f.Step e g) : g.Guarded medium (r.after f.shop.store e) := by
  cases step with
  | comes absent => exact h.comes absent heeds
  | does present step => exact h.does present step heeds
  | leaves present => exact h.leaves present
  | turns =>
      refine ⟨h.store, h.locks, h.behind, h.sessions, fun v key right hright => ?_, h.apart⟩
      obtain ⟨s, hs, stands⟩ := h.rights v key right hright
      exact ⟨s, hs, stands.mono id (fun _ => rfl) id id⟩

/-- Whoever commits has the right to all that he has staged. -/
theorem no_dispute (h : f.Guarded medium r) : f.Undisputed medium r where
  apart := h.apart
  commits v s g key row present step hrow := by
    cases step with
    | does present' step =>
        obtain rfl := Option.some.inj (present'.symm.trans present)
        cases step with
        | act =>
            obtain ⟨phase, keeps⟩ := h.sessions v _ present
            cases phase with
            | ending => exact keeps.follows.1.elim
            | working last =>
                obtain ⟨right, hright, sound⟩ := (keeps.entitled last rfl).staged key row hrow
                obtain ⟨_, hs, stands⟩ := h.rights v key right hright
                exact ⟨right, hright, stands.kept sound⟩
  places v w s g item step present holds := by
    cases step with
    | does placing step =>
        cases step with
        | act =>
            obtain ⟨phase, keeps⟩ := h.sessions v _ placing
            cases phase with
            | ending => exact keeps.follows.1.elim
            | working last =>
                obtain ⟨-, hlast⟩ := keeps.follows.1
                have locks := h.locks_item placing ((keeps.entitled last rfl).last _ hlast)
                exact h.eq_of_locks placing present locks (h.locks_item present holds)

end Floor.Guarded

namespace Floor

variable [DecidableEq ν] {medium : Medium} {start f : Floor ν Answer} {r : Rights ν}

omit [DecidableEq ν] in
theorem Vacant.guarded (h : start.Vacant medium) : start.Guarded medium .none where
  store := h.store
  locks := h.locks
  behind := h.behind
  sessions v s present := by cases (h.empty v).symm.trans present
  rights v key right := nofun
  apart v w key right right' := nofun

theorem Watched.guarded (run : start.Watched (fun f r e => e.Heeds medium f r) f r)
    (vacant : start.Vacant medium) : f.Guarded medium r := by
  induction run with
  | nil => exact vacant.guarded
  | snoc _ step heeds ih => exact ih.step heeds step

/-- In every run, whoever the clients are and whatever they call, as long as nobody stages a row
that was not there when he locked it: a commit finds every row that it writes as it was when the
right to write it was obtained, and no two can write the same row. -/
theorem Watched.undisputed (vacant : start.Vacant medium)
    (run : start.Watched (fun f r e => e.Heeds medium f r) f r) : f.Undisputed medium r :=
  (run.guarded vacant).no_dispute

/-- While an item is registered, a client changes another one and inserts a fee. When he is about to
commit, what he writes is as it was when he locked or inserted it. -/
theorem Watched.undisputed_registered :
    ∃ (start f : Floor Bool Answer) (r : Rights Bool), start.Vacant .memory ∧
      start.Watched (fun f r e => e.Heeds .memory f r) f r ∧ f.Undisputed .memory r ∧
      (r false (.item 3)).isSome ∧ (r false (.fee 1)).isSome := by
  let start : Floor Bool Answer :=
    ofShop (Shop.opened (.memory (Tables.empty.putItem (.new 3 "Ran"))) .fresh 100 .epoch)
  let client : Comer := .client (.calls (.lockItem 3) fun _ =>
    .calls (.updateItem ⟨3, "Ran", false⟩) fun _ => .calls (.insertFee ⟨1, .zero, "Late return"⟩)
      fun _ => .calls .commit .ends)
  have vacant : start.Vacant .memory := by
    refine ⟨rfl, fun _ => rfl, .empty, fun key hkey series hseries => ?_⟩
    cases key with
    | item id => cases hseries
    | rental id => cases hkey
    | fee id => cases hkey
  have nobody : start.Watched (fun f r e => e.Heeds .memory f r) start .none := .nil
  have came := nobody.snoc (e := .comes false _)
    (.comes rfl) ⟨client, .standard, rfl⟩
  have asked := came.snoc (e := .does false _) (.does rfl (.ask (by decide))) (.of_quiet rfl rfl)
  have took := asked.snoc (e := .does false _) (.does rfl (.take rfl)) (.of_quiet rfl rfl)
  have read := took.snoc (e := .does false _) (.does rfl .act) (.of_quiet rfl rfl)
  have arrived := read.snoc (e := .comes true _) (.comes rfl)
    ⟨.registrar (.new 5 "Alien"), .standard, rfl⟩
  have checked := arrived.snoc (e := .does true _) (.does rfl .act) (.of_quiet rfl rfl)
  have registered := checked.snoc (e := .does true _) (.does rfl .act) (.of_quiet rfl rfl)
  have staged := registered.snoc (e := .does false _)
    (.does rfl .act) ⟨nofun, fun _ _ hkey hright => by
      cases hkey
      cases hright
      exact .inr (.inl rfl)⟩
  have inserted := staged.snoc (e := .does false _)
    (.does rfl .act) ⟨fun series hseries => by cases hseries; decide,
      fun _ _ hkey => by cases hkey⟩
  exact ⟨start, _, _, vacant, inserted, Watched.undisputed vacant inserted, rfl, rfl⟩

/-- In memory a registration does not wait for the lock of the item. Whoever has locked the item
before it was registered overwrites it. -/
theorem Watched.not_undisputed_registered :
    ∃ (f : Floor Bool Answer) (r : Rights Bool),
      (ofShop (Shop.opened (.empty .memory) .fresh 100 .epoch)).Watched
          (fun _ _ e => e.Joins .memory) f r ∧ ¬ f.Undisputed .memory r := by
  let start : Floor Bool Answer :=
    ofShop (Shop.opened (.empty .memory) .fresh 100 .epoch)
  let client : Comer := .client (.calls (.lockItem 5) fun _ =>
    .calls (.updateItem (.new 5 "Heat")) fun _ => .calls .commit .ends)
  have nobody : start.Watched (fun _ _ e => e.Joins .memory) start .none := .nil
  have came := nobody.snoc (e := .comes false _) (.comes rfl) ⟨client, .standard, rfl⟩
  have asked := came.snoc (e := .does false _) (.does rfl (.ask (by decide))) trivial
  have took := asked.snoc (e := .does false _) (.does rfl (.take rfl)) trivial
  have read := took.snoc (e := .does false _) (.does rfl .act) trivial
  have arrived := read.snoc (e := .comes true _) (.comes rfl)
    ⟨.registrar (.new 5 "Alien"), .standard, rfl⟩
  have checked := arrived.snoc (e := .does true _) (.does rfl .act) trivial
  have registered := checked.snoc (e := .does true _) (.does rfl .act) trivial
  have staged := registered.snoc (e := .does false _) (.does rfl .act) trivial
  refine ⟨_, _, staged, fun undisputed => ?_⟩
  obtain ⟨right, hright, hrecord⟩ :=
    undisputed.commits false _ _ (.item 5) _ rfl (.does rfl .act) rfl
  cases hright
  cases hrecord

/-- Locking a fee that is not there does not keep its identifier from being drawn. Whoever has
staged the fee meanwhile overwrites the one that was inserted. -/
theorem Watched.not_undisputed_drawn (medium : Medium) :
    ∃ (f : Floor Bool Answer) (r : Rights Bool),
      (ofShop (Shop.opened (.empty medium) .fresh 100 .epoch)).Watched
          (fun _ _ e => e.Joins medium) f r ∧ ¬ f.Undisputed medium r := by
  let start : Floor Bool Answer := ofShop (Shop.opened (.empty medium) .fresh 100 .epoch)
  let fee : NewFee := ⟨1, .zero, "Late return"⟩
  let early : Comer := .client (.calls (.lockFee 1) fun _ =>
    .calls (.updateFee (fee.withId 1)) fun _ => .calls .commit .ends)
  let late : Comer := .client (.calls (.insertFee fee) fun _ => .calls .commit .ends)
  obtain ⟨f, r, run, w, w', next, next', row, row', first, second, staged, staged', right⟩ :
      ∃ f r, start.Watched (fun _ _ e => e.Joins medium) f r ∧ ∃ w w' next next' row row',
        f.sessions false = some ⟨w, .running (.act .apply next)⟩ ∧
        f.sessions true = some ⟨w', .running (.act .apply next')⟩ ∧
        w.staged.row? (.fee 1) = some row ∧ w'.staged.row? (.fee 1) = some row' ∧
        r false (.fee 1) = some ⟨none, false⟩ := by
    have nobody : start.Watched (fun _ _ e => e.Joins medium) start .none := .nil
    have came := nobody.snoc (e := .comes false _) (.comes rfl) ⟨early, .standard, rfl⟩
    have asked := came.snoc (e := .does false _) (.does rfl (.ask (by decide))) trivial
    have took := asked.snoc (e := .does false _) (.does rfl (.take rfl)) trivial
    cases medium
    all_goals
      have read := took.snoc (e := .does false _) (.does rfl .act) trivial
      have staged := read.snoc (e := .does false _) (.does rfl .act) trivial
      have arrived := staged.snoc (e := .comes true _) (.comes rfl) ⟨late, .standard, rfl⟩
      have inserted := arrived.snoc (e := .does true _) (.does rfl .act) trivial
      exact ⟨_, _, inserted, _, _, _, _, _, _, rfl, rfl, rfl, rfl, rfl⟩
  have commit := Step.does second .act
  have still := (commit.sessions_of_ne (v := false) nofun).trans first
  refine ⟨_, _, run.snoc commit trivial, fun undisputed => ?_⟩
  obtain ⟨right', hright, hrecord⟩ :=
    undisputed.commits false _ _ (.fee 1) _ still (.does still .act) staged
  obtain rfl := Option.some.inj (right.symm.trans hright)
  change (f.shop.store.apply w'.staged).record? (.fee 1) = none at hrecord
  rw [Store.record?_apply, staged'] at hrecord
  cases hrecord

end Floor

end RentalDesk
