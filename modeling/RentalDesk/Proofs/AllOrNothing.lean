import RentalDesk.Proofs.Dealing.Reached
import RentalDesk.Proofs.Handling

/-!
# All or nothing

Whatever a desk has come to, among whatever services, in whatever order of steps and whichever store
calls fail: a request line commits once at most, and then all that it has to write on the rows that
are committed at that time. It is answered by success if and only if it has committed. Apart from
the commit no step of it changes a row, and before the commit it leaves no trace but identifiers
that are used up. Once it is answered or dropped it claims no row, and nothing of it can happen any
more.
-/

namespace RentalDesk

open Script

/-- The two shops differ in the sequences and the row locks at most. -/
def Shop.Spares (before after : Shop) : Prop :=
  after = { before with sequences := after.sequences, locks := after.locks }

theorem Shop.Spares.store {a b : Shop} (h : a.Spares b) : b.store = a.store := by
  rw [h]

abbrev Deed.commit : Deed := .did .apply ()

/-- The rows afterwards are those of `t`, with all that was staged in place of what had the same
identifiers. -/
structure Tables.Takes (t staged after : Tables) : Prop where
  items : ∀ id, after.items.get? id = (staged.items.get? id).or (t.items.get? id)
  rentals : ∀ id, after.rentals.get? id = (staged.rentals.get? id).or (t.rentals.get? id)
  fees : ∀ id, after.fees.get? id = (staged.fees.get? id).or (t.fees.get? id)
  invoices : ∀ id, after.invoices.get? id = (staged.invoices.get? id).or (t.invoices.get? id)

theorem Tables.takes_merge (t staged : Tables) : t.Takes staged (t.merge staged) where
  items := t.items.get?_merge staged.items
  rentals := t.rentals.get?_merge staged.rentals
  fees := t.fees.get?_merge staged.fees
  invoices := t.invoices.get?_merge staged.invoices

section

variable {ν : Type}

/-- What is staged is all that the request line of a name has to write on the committed rows, at a
time that the name has read on the clock. To apply it is to take all of it. -/
def Floor.Due (f : Floor ν Answer) (terms : Terms) (line : List Char) (v : ν)
    (events : List (Event ν Answer)) (reply : Reply) (staged : Tables) : Prop :=
  ∃ t after c, f.shop.store = t.keptIn terms.medium ∧ .does v (.did .now c.now) ∈ events ∧
    terms.Writes line t c reply staged ∧ t.Takes staged after ∧
    f.shop.store.apply staged = after.keptIn terms.medium

variable [DecidableEq ν]

/-- In a run the request line of a name has committed all rows that were due. -/
def Committed (terms : Terms) (line : List Char) (start : Floor ν Answer) (v : ν)
    (events : List (Event ν Answer)) (f : Floor ν Answer) (reply : Reply) (staged : Tables) :
    Prop :=
  ∃ before after g h s, events = before ++ .does v .commit :: after ∧ start.Run before g ∧
    g.sessions v = some s ∧ s.writes.staged = staged ∧ g.Due terms line v before reply staged ∧
    g.Step (.does v .commit) h ∧ h.shop = { g.shop with store := g.shop.store.apply staged } ∧
    h.Run after f

/-- The rows are those at first, or those at first with all that the request has committed. -/
def Floor.Unmixed (f : Floor ν Answer) (terms : Terms) (line : List Char) (start : Floor ν Answer)
    (v : ν) (events : List (Event ν Answer)) : Prop :=
  (.does v .commit ∉ events ∧ f.shop.store = start.shop.store) ∨
    ∃ reply staged, Committed terms line start v events f reply staged ∧
      f.shop.store = start.shop.store.apply staged

namespace Floor

variable {ρ : Type}

/-- The request of a name was answered or dropped. -/
def Over (f : Floor ν ρ) (v : ν) : Prop :=
  f.sessions v = none ∨ ∃ s answer, f.sessions v = some s ∧ s.result? = some answer

/-- Nothing is left of the request of a name: it has nothing staged, all locks are held and all
tickets wait for others, and it takes no more steps. -/
structure Clear (f : Floor ν ρ) (v : ν) : Prop where
  claims : f.claims v = .none
  unstaged : ∀ s, f.sessions v = some s → s.writes = .empty
  held : ∀ id n, (f.shop.locks.mutex id).holder = some n →
    ∃ w t, w ≠ v ∧ t ∈ (f.claims w).held ∧ t.mutex = id ∧ t.number = n
  queued : ∀ id n, n ∈ (f.shop.locks.mutex id).queue →
    ∃ w t, w ≠ v ∧ (f.claims w).waiting = some t ∧ t.mutex = id ∧ t.number = n
  idle : ∀ more g, f.Run more g → (∀ task, .comes v task ∉ more) → ∀ deed, .does v deed ∉ more

end Floor

/-- What a run has done and can do for a request line that somebody has come with. -/
structure AllOrNothing (terms : Terms) (line : List Char) (start : Floor ν Answer) (v : ν)
    (events : List (Event ν Answer)) (f : Floor ν Answer) : Prop where
  /-- A step that is not the commit changes no row. Before the commit it changes nothing but
  sequences and row locks. -/
  spares : ∀ deed g, f.Step (.does v deed) g → deed ≠ .commit →
    g.shop.store = f.shop.store ∧ (.does v .commit ∉ events → f.shop.Spares g.shop)
  /-- The commit is made once, and commits all that is due. -/
  commits : ∀ g, f.Step (.does v .commit) g → .does v .commit ∉ events ∧
    ∃ s reply, f.sessions v = some s ∧ f.Due terms line v events reply s.writes.staged ∧
      g.shop = { f.shop with store := f.shop.store.apply s.writes.staged }
  leaves : ∀ g, f.Step (.leaves v) g → f.shop.Spares g.shop
  /-- The answer is a reply, which tells of success if and only if the request has committed. -/
  replies : ∀ s answer, f.sessions v = some s → s.result? = some answer →
    ∃ reply, answer = .reply reply ∧
      (reply.succeeds = true → ∃ staged, Committed terms line start v events f reply staged) ∧
      (reply.succeeds = false → .does v .commit ∉ events)
  clears : f.Over v → f.Clear v
  /-- While nobody else does anything, the rows are either those at first or those at first with
  all that was due. -/
  alone : (∀ e ∈ events, ∀ w, e.name? = some w → w = v) → f.Unmixed terms line start v events

variable {terms : Terms} {line : List Char} {start f g : Floor ν Answer} {v : ν}
  {events : List (Event ν Answer)} {e : Event ν Answer} {reply : Reply} {staged : Tables}

theorem Committed.snoc (h : Committed terms line start v events f reply staged)
    (step : f.Step e g) : Committed terms line start v (events ++ [e]) g reply staged := by
  obtain ⟨before, after, g', h', s, rfl, hbefore, present, hstaged, due, commit, hshop, hafter⟩ := h
  exact ⟨before, after ++ [e], g', h', s, by simp, hbefore, present, hstaged, due, commit, hshop,
    hafter.snoc step⟩

theorem Committed.mem (h : Committed terms line start v events f reply staged) :
    .does v .commit ∈ events := by
  obtain ⟨before, after, -, -, -, rfl, -⟩ := h
  exact List.mem_append_right _ List.mem_cons_self

/-! ## Requests that are over -/

namespace Floor

section

variable {ρ : Type} {f g : Floor ν ρ} {e : Event ν ρ}

theorem Over.step (h : f.Over v) (step : f.Step e g) (comes : ∀ task, e ≠ .comes v task) :
    g.Over v ∧ ∀ deed, e ≠ .does v deed := by
  by_cases hv : e.name? = some v
  · cases step with
    | @comes w task =>
        obtain rfl := Option.some.inj hv
        exact absurd rfl (comes task)
    | @does w s s' deed shop present step =>
        obtain rfl := Option.some.inj hv
        rcases h with absent | ⟨r, answer, hr, result⟩
        · cases absent.symm.trans present
        · obtain rfl := Option.some.inj (present.symm.trans hr)
          cases step <;> cases result
    | @leaves w s present =>
        obtain rfl := Option.some.inj hv
        exact ⟨.inl (remove_sessions_self ..), fun deed hdeed => by cases hdeed⟩
    | turns => cases hv
  · rw [Over, step.sessions_of_ne hv]
    refine ⟨h, ?_⟩
    rintro deed rfl
    exact hv rfl

/-- A request that is over takes no more steps. -/
theorem Over.idle {more : List (Event ν ρ)} (h : f.Over v) (run : f.Run more g)
    (comes : ∀ task, .comes v task ∉ more) : g.Over v ∧ ∀ deed, .does v deed ∉ more := by
  induction run with
  | nil => exact ⟨h, fun _ => List.not_mem_nil⟩
  | @snoc more g g' e run step ih =>
      obtain ⟨ended, idle⟩ := ih fun task htask => comes task (List.mem_append_left _ htask)
      obtain ⟨ended', other⟩ := ended.step step fun task htask =>
        comes task (List.mem_append_right _ (List.mem_singleton.2 htask.symm))
      refine ⟨ended', fun deed hdeed => ?_⟩
      rcases List.mem_append.1 hdeed with hdeed | hdeed
      · exact idle deed hdeed
      · exact other deed (List.mem_singleton.1 hdeed).symm

/-- Who claims nothing is none of those whose tickets are served. -/
theorem Over.clear (h : f.Over v) (serves : f.shop.locks.Serves f.claims)
    (unstaged : ∀ s answer, f.sessions v = some s → s.result? = some answer → s.writes = .empty) :
    f.Clear v := by
  have hclaims : f.claims v = .none := by
    rcases h with absent | ⟨s, answer, present, result⟩
    · rw [claims, absent, Option.elim_none]
    · obtain ⟨writes, stage⟩ := s
      have hwrites : writes = .empty := unstaged _ answer present result
      rw [claims_of_session present]
      cases stage with
      | running task =>
          rw [Session.claims_running, hwrites]
          rfl
      | waiting => cases result
  constructor
  case claims => exact hclaims
  case unstaged =>
    intro s present
    rcases h with absent | ⟨r, answer, hr, result⟩
    · cases absent.symm.trans present
    · obtain rfl := Option.some.inj (present.symm.trans hr)
      exact unstaged s answer present result
  case held =>
    intro id n hholder
    obtain ⟨w, t, ht, hid, hn⟩ := (serves.holder id n).1 hholder
    refine ⟨w, t, ?_, ht, hid, hn⟩
    rintro rfl
    rw [hclaims] at ht
    exact absurd ht List.not_mem_nil
  case queued =>
    intro id n hqueue
    obtain ⟨w, t, ht, hid, hn⟩ := (serves.queue id n).1 hqueue
    refine ⟨w, t, ?_, ht, hid, hn⟩
    rintro rfl
    rw [hclaims] at ht
    cases ht
  case idle => exact fun more g run comes => (h.idle run comes).2

end

end Floor

/-! ## Requests that are under way -/

/-- The reading of a watch is one that was made before, or is the answer of the last action. -/
theorem Watch.moment?_after {w : Watch} {action : Action} {answer : action.Answer}
    {custody : Custody} {m : Moment} (h : (w.after action answer custody).moment? = some m) :
    w.moment? = some m ∨ Deed.did action answer = .did .now m.now := by
  cases action
  case now =>
      obtain rfl := Option.some.inj h
      exact .inr rfl
  case apply => cases h
  case placeItem => cases h
  case release => cases h
  case discard => cases h
  all_goals exact .inl h

/-- What a permitted action other than the commit does to the shop. -/
theorem Terms.spares_perform (shop : Shop) (writes : WriteSet) {p : Course} {action : Action}
    (permits : (terms.handling line).permits p action) (other : action ≠ .apply) :
    (shop.perform writes action).2.1.store = shop.store ∧
      (p.applied = none → shop.Spares (shop.perform writes action).2.1) := by
  obtain ⟨-, permits⟩ := permits
  cases action
  case apply => exact absurd rfl other
  case announce item =>
      refine ⟨rfl, fun h => ?_⟩
      rw [h] at permits
      cases permits
  case registerItem => exact permits.elim
  case placeItem => exact permits.elim
  case updateItem item =>
      simp only [Shop.perform, Shop.staged_shop, true_and]
      exact fun _ => rfl
  case updateRental rental =>
      simp only [Shop.perform, Shop.staged_shop, true_and]
      exact fun _ => rfl
  case updateFee fee =>
      simp only [Shop.perform, Shop.staged_shop, true_and]
      exact fun _ => rfl
  all_goals exact ⟨rfl, fun _ => rfl⟩

/-- The session handles the request line, and what it has in custody fits the rows. -/
structure Session.Handles (s : Session Answer) (terms : Terms) (line : List Char) (t : Tables)
    (last : Series → Nat) (p : Course) : Prop where
  writes : p.watch.custody.writes = s.writes
  fits : Policy.history.Fits terms.medium t last p.watch.custody
  follows : s.Follows (terms.handling line) p fun answer p' =>
    ∃ reply, answer = .reply reply ∧ p'.Ends terms line reply

/-- One step of a request: a commit of all that was prepared, its first, or a step that spares the
rows. -/
inductive Course.Advances (terms : Terms) (line : List Char) (p : Course) (shop : Shop) :
    Deed → Shop → Course → Prop
  | commits {p' : Course} {reply : Reply} (first : p.applied = none)
      (working : p.watch.custody.ended = false)
      (prepared : p.watch.PreparedFor terms line reply) (applied : p'.applied = some p.watch) :
      Advances terms line p shop .commit
        { shop with store := shop.store.apply p.watch.custody.writes.staged } p'
  | spares {deed : Deed} {shop' : Shop} {p' : Course} (other : deed ≠ .commit)
      (store : shop'.store = shop.store) (spares : p.applied = none → shop.Spares shop')
      (applied : p'.applied = p.applied) : Advances terms line p shop deed shop' p'

/-- A move towards a row lock spares everything but the row locks. -/
theorem Course.Advances.of_wait {p p' : Course} {shop : Shop} {deed : Deed} {locks : RowLocks}
    (other : deed ≠ .commit) (applied : p'.applied = p.applied) :
    p.Advances terms line shop deed { shop with locks } p' :=
  .spares other rfl (fun _ => rfl) applied

omit [DecidableEq ν] in
/-- A session that handles a request line advances by every step. It goes on handling the line, as
long as there are identifiers left. -/
theorem Session.Handles.step {t : Tables} {last : Series → Nat} {s s' : Session Answer} {p : Course}
    {deed : Deed} {shop : Shop} (h : s.Handles terms line t last p)
    (kept : f.Kept .history terms.medium t last) (present : f.sessions v = some s)
    (step : Session.Step f.shop s deed shop s') :
    ∃ p', p.Advances terms line f.shop deed shop p' ∧
      (∀ m, p'.watch.moment? = some m → p.watch.moment? = some m ∨ deed = .did .now m.now) ∧
      ((∀ s, deed.tally last s < UInt64.size) →
        s'.Handles terms line (f.performed t (.does v deed)) (deed.tally last) p') := by
  obtain ⟨writes, fits, follows⟩ := h
  have later := fits.later (deed.le_tally last)
  cases step with
  | @act _ action next =>
      subst writes
      obtain ⟨permits, goes⟩ := follows
      refine ⟨⟨p.watch.after action _ _, if action = .apply then some p.watch else p.applied⟩,
        ?_, fun m hm => Watch.moment?_after hm, fun few => ⟨?_, ?_, goes _ _
          ⟨⟨_, ⟨f.shop, t, last, kept.store, kept.keyed, fits, rfl, rfl⟩, rfl⟩, rfl⟩⟩⟩
      · by_cases apply : action = .apply
        · subst apply
          obtain ⟨⟨⟨working, -⟩, -⟩, first, reply, prepared⟩ := permits
          exact .commits first working prepared rfl
        · obtain ⟨store, spares⟩ :=
            Terms.spares_perform f.shop p.watch.custody.writes permits apply
          refine .spares (fun hdeed => ?_) store spares (if_neg apply)
          cases hdeed
          exact apply rfl
      · rw [Watch.custody_after]
        exact Policy.history.writes_after terms.medium t p.watch.custody f.shop action
      · rw [Watch.custody_after, Floor.performed, present, Option.elim_some]
        exact fits.act (Policy.history_sound terms.medium) kept.keyed kept.store kept.counts
          permits.1.1 few
  | pass holds =>
      refine ⟨p, .of_wait (by simp) rfl, fun m => .inl, fun _ => ⟨writes, later, ?_⟩⟩
      exact follows true p ⟨⟨_, .inl ⟨writes ▸ holds, rfl⟩, rfl⟩, rfl⟩
  | ask holds =>
      exact ⟨p, .of_wait (by simp) rfl, fun m => .inl, fun _ => ⟨writes, later, follows⟩⟩
  | @take _ ticket deadline next locks granted =>
      let custody := { p.watch.custody with writes := p.watch.custody.writes.hold ticket }
      refine ⟨⟨p.watch.hand custody, p.applied⟩, .of_wait (by simp) rfl, fun m => .inl,
        fun _ => ⟨congrArg (·.hold ticket) writes, later.hold ticket, ?_⟩⟩
      exact follows true _ ⟨⟨_, .inr ⟨ticket, rfl, rfl⟩, rfl⟩, rfl⟩
  | giveUp =>
      refine ⟨p, .of_wait (by simp) rfl, fun m => .inl, fun _ => ⟨writes, later, ?_⟩⟩
      exact follows false p ⟨⟨_, rfl, rfl⟩, rfl⟩

/-- What is left to do of a request, and what it has done so far. -/
structure Handled (terms : Terms) (line : List Char) (start : Floor ν Answer) (v : ν)
    (events : List (Event ν Answer)) (f : Floor ν Answer) (t : Tables) (last : Series → Nat)
    (s : Session Answer) (p : Course) : Prop where
  session : s.Handles terms line t last p
  read : ∀ m, p.watch.moment? = some m → .does v (.did .now m.now) ∈ events
  applied : p.applied = none ↔ .does v .commit ∉ events
  committed : ∀ w reply, p.applied = some w → w.PreparedFor terms line reply →
    Committed terms line start v events f reply w.custody.writes.staged

namespace Handled

variable {t : Tables} {last : Series → Nat} {s s' : Session Answer} {p : Course}

theorem first (terms : Terms) (line : String) (start g : Floor ν Answer) (v : ν) (t : Tables)
    (last : Series → Nat) :
    let task := (Service.call (.send line)).task terms
    Handled terms line.toList start v [.comes v task] g t last (.start task)
      (.start (renterOfLine? line.toList)) where
  session := by
    refine ⟨rfl, .start, Task.follows_bind.2 ((terms.handles_answerLine _).mono ?_)⟩
    exact fun reply p ends => Task.follows_pure.2 ⟨reply, rfl, ends⟩
  read _ hm := by cases hm
  applied := iff_of_true rfl fun hcommit => by cases List.mem_singleton.1 hcommit
  committed _ _ happlied := by cases happlied

/-- An event that is about somebody else. -/
theorem other (h : Handled terms line start v events f t last s p)
    (kept : f.Kept .history terms.medium t last) (present : f.sessions v = some s)
    (step : f.Step e g) (he : e.name? ≠ some v) :
    Handled terms line start v (events ++ [e]) g (f.performed t e) (e.tally last) s p where
  session := ⟨h.session.writes,
    kept.fits_other step he present h.session.writes h.session.fits, h.session.follows⟩
  read m hm := List.mem_append_left _ (h.read m hm)
  applied := by
    have hne : .does v .commit ≠ e := fun heq => he (heq ▸ rfl)
    rw [h.applied, List.mem_append, List.mem_singleton, or_iff_left hne]
  committed w reply happlied prepared := (h.committed w reply happlied prepared).snoc step

/-- What is staged for the commit is due. -/
theorem due (h : Handled terms line start v events f t last s p)
    (kept : f.Kept .history terms.medium t last) (working : p.watch.custody.ended = false)
    (prepared : p.watch.PreparedFor terms line reply) :
    f.Due terms line v events reply p.watch.custody.writes.staged := by
  obtain ⟨c, known, moment, writes⟩ := prepared.writes h.session.fits working
  refine ⟨t, _, c, kept.store, h.read _ moment, writes, t.takes_merge _, ?_⟩
  rw [kept.store, Tables.apply_keptIn]

/-- The commit of all that is due. -/
theorem commits (h : Handled terms line start v events f t last s p)
    (kept : f.Kept .history terms.medium t last) (run : start.Run events f)
    (present : f.sessions v = some s) (working : p.watch.custody.ended = false)
    (prepared : p.watch.PreparedFor terms line reply) (step : f.Step (.does v .commit) g)
    (hshop : g.shop =
      { f.shop with store := f.shop.store.apply p.watch.custody.writes.staged }) :
    Committed terms line start v (events ++ [.does v .commit]) g reply
      p.watch.custody.writes.staged :=
  ⟨events, [], f, g, s, rfl, run, present, h.session.writes ▸ rfl, h.due kept working prepared,
    step, hshop, .nil⟩

/-- A step of the request itself. -/
theorem own {deed : Deed} {shop : Shop} (h : Handled terms line start v events f t last s p)
    (kept : f.Kept .history terms.medium t last) (run : start.Run events f)
    (present : f.sessions v = some s) (step : Session.Step f.shop s deed shop s')
    (few : ∀ s, deed.tally last s < UInt64.size) :
    ∃ p', Handled terms line start v (events ++ [.does v deed]) (f.put v shop s')
      (f.performed t (.does v deed)) (deed.tally last) s' p' := by
  have fstep : f.Step (.does v deed) (f.put v shop s') := .does present step
  obtain ⟨p', advances, moment, session⟩ := h.session.step kept present step
  refine ⟨p', session few, fun m hm => ?_, ?_, fun w reply happlied prepared => ?_⟩
  · rcases moment m hm with hm | rfl
    · exact List.mem_append_left _ (h.read m hm)
    · exact List.mem_append_right _ List.mem_cons_self
  · cases advances with
    | commits _ _ _ applied =>
        rw [applied]
        exact iff_of_false nofun fun hcommit =>
          hcommit (List.mem_append_right _ List.mem_cons_self)
    | spares other _ _ applied =>
        have hne : (.does v .commit : Event ν Answer) ≠ .does v deed := fun heq =>
          other (Event.does.inj heq).2.symm
        rw [applied, h.applied, List.mem_append, List.mem_singleton, or_iff_left hne]
  · cases advances with
    | commits first working _ applied =>
        obtain rfl := Option.some.inj (applied.symm.trans happlied)
        exact h.commits kept run present working prepared fstep rfl
    | spares _ _ _ applied =>
        exact (h.committed w reply (applied.symm.trans happlied) prepared).snoc fstep

end Handled

namespace Floor

omit [DecidableEq ν] in
theorem spares_drop (f : Floor ν Answer) (s : Session Answer) : f.shop.Spares (s.drop f.shop) := by
  rw [Shop.Spares, drop_eq]

theorem Unmixed.still (h : f.Unmixed terms line start v events) (step : f.Step e g)
    (he : e ≠ .does v .commit) (store : g.shop.store = f.shop.store) :
    g.Unmixed terms line start v (events ++ [e]) := by
  rw [Unmixed, store]
  refine h.imp ?_ ?_
  · rintro ⟨hcommit, hsame⟩
    refine ⟨fun hmem => ?_, hsame⟩
    rcases List.mem_append.1 hmem with hmem | hmem
    · exact hcommit hmem
    · exact he (List.mem_singleton.1 hmem).symm
  · rintro ⟨reply, staged, committed, happlied⟩
    exact ⟨reply, staged, committed.snoc step, happlied⟩

end Floor

/-- The custody of everybody fits the rows, and what somebody has come with is handled as long as he
is there. -/
structure Floor.Handling (f : Floor ν Answer) (terms : Terms) (line : List Char)
    (start : Floor ν Answer) (v : ν) (events : List (Event ν Answer)) (t : Tables)
    (last : Series → Nat) : Prop where
  kept : f.Kept .history terms.medium t last
  handled : ∀ s, f.sessions v = some s → ∃ p, Handled terms line start v events f t last s p
  unmixed : (∀ e ∈ events, ∀ w, e.name? = some w → w = v) →
    f.Unmixed terms line start v events

namespace Floor

variable {t : Tables} {last : Series → Nat}

/-- A step of the request advances it. -/
theorem Handling.advances {deed : Deed} (h : f.Handling terms line start v events t last)
    (step : f.Step (.does v deed) g) : ∃ s p p', f.sessions v = some s ∧
      Handled terms line start v events f t last s p ∧
      p.Advances terms line f.shop deed g.shop p' := by
  cases step with
  | @does _ s s' _ shop present step =>
      obtain ⟨p, handled⟩ := h.handled s present
      obtain ⟨p', advances, -⟩ := handled.session.step h.kept present step
      exact ⟨s, p, p', present, handled, advances⟩

/-- What a step of nobody else makes of the rows. -/
theorem Handling.unmixed_step (h : f.Handling terms line start v events t last)
    (run : start.Run events f) (step : f.Step e g) (unmixed : f.Unmixed terms line start v events)
    (alone : ∀ w, e.name? = some w → w = v) (once : ∀ task, e ≠ .comes v task) :
    g.Unmixed terms line start v (events ++ [e]) := by
  cases e with
  | comes w task =>
      obtain rfl := alone w rfl
      exact absurd rfl (once task)
  | does w deed =>
      obtain rfl := alone w rfl
      obtain ⟨s, p, p', present, handled, advances⟩ := h.advances step
      generalize hshop : g.shop = shop at advances
      cases advances with
      | @commits _ reply first working prepared applied =>
          rcases unmixed with ⟨-, hsame⟩ | ⟨_, _, committed, -⟩
          · refine .inr ⟨reply, _,
              handled.commits h.kept run present working prepared step hshop, ?_⟩
            rw [hshop, hsame]
          · exact absurd committed.mem (handled.applied.1 first)
      | spares other store =>
          exact unmixed.still step (fun he => other (Event.does.inj he).2) (hshop ▸ store)
  | leaves w =>
      cases step with
      | @leaves _ s present =>
          exact unmixed.still (.leaves present) (by simp) (f.spares_drop s).store
  | turns =>
      cases step
      exact unmixed.still .turns (by simp) rfl

theorem Handling.step (h : f.Handling terms line start v events t last) (run : start.Run events f)
    (step : f.Step e g) (served : e.Served terms) (once : ∀ task, e ≠ .comes v task)
    (few : ∀ s, e.tally last s < UInt64.size) :
    g.Handling terms line start v (events ++ [e]) (f.performed t e) (e.tally last) where
  kept := h.kept.step (Policy.history_sound terms.medium) step served.heeded few
  handled s present := by
    by_cases hv : e.name? = some v
    · cases step with
      | @comes w task =>
          obtain rfl := Option.some.inj hv
          exact absurd rfl (once task)
      | @does w r r' deed shop earlier step =>
          obtain rfl := Option.some.inj hv
          obtain rfl := Option.some.inj ((put_sessions_self ..).symm.trans present)
          obtain ⟨p, handled⟩ := h.handled r earlier
          exact handled.own h.kept run earlier step few
      | @leaves w r earlier =>
          obtain rfl := Option.some.inj hv
          cases (remove_sessions_self ..).symm.trans present
      | turns => cases hv
    · rw [step.sessions_of_ne hv] at present
      obtain ⟨p, handled⟩ := h.handled s present
      exact ⟨p, handled.other h.kept present step hv⟩
  unmixed alone := by
    rw [List.forall_mem_append] at alone
    exact h.unmixed_step run step (h.unmixed alone.1) (alone.2 e List.mem_cons_self) once

/-- Whoever comes with a request line has it handled. -/
theorem Kept.handling (kept : f.Kept .history terms.medium t last) {line : String}
    (step : f.Step (.comes v ((Service.call (.send line)).task terms)) g)
    (few : ∀ s, last s < UInt64.size) :
    g.Handling terms line.toList f v [.comes v ((Service.call (.send line)).task terms)] t
      last where
  kept := kept.step (Policy.history_sound terms.medium) step
    (Event.Served.heeded (e := .comes v _) ⟨_, rfl⟩) few
  handled s present := by
    cases step with
    | comes absent =>
        obtain rfl := Option.some.inj ((put_sessions_self ..).symm.trans present)
        exact ⟨_, .first terms line f _ v t last⟩
  unmixed _ := by
    cases step
    refine .inl ⟨fun hcommit => ?_, rfl⟩
    cases List.mem_singleton.1 hcommit

/-- As long as there are identifiers left, the request line is handled. -/
theorem Run.handling {line : String}
    (run : start.Run (.comes v ((Service.call (.send line)).task terms) :: events) f)
    (kept : start.Kept .history terms.medium t last) (served : ∀ e ∈ events, e.Served terms)
    (once : ∀ task, .comes v task ∉ events) (few : ∀ s, last s + draws events s < UInt64.size) :
    ∃ t', f.Handling terms line.toList start v
      (.comes v ((Service.call (.send line)).task terms) :: events) t'
      fun s => last s + draws events s := by
  obtain ⟨g, comes, rest⟩ := run.uncons
  clear run
  induction rest with
  | nil => exact ⟨t, kept.handling comes few⟩
  | @snoc events g' f e rest step ih =>
      rw [List.forall_mem_append] at served
      obtain ⟨t', handling⟩ := ih served.1
        (fun task htask => once task (List.mem_append_left _ htask)) (few_of_append few).1
      refine ⟨g'.performed t' e, ?_⟩
      rw [← Event.tally_draws]
      refine handling.step (.cons comes rest) step (served.2 e List.mem_cons_self) ?_ ?_
      · rintro task rfl
        exact once task (List.mem_append_right _ List.mem_cons_self)
      · rwa [Event.tally_draws]

/-- Whatever a desk has come to, whatever others do and whichever store calls fail, a request line
commits all that it has to write, or nothing. -/
theorem Run.all_or_nothing {accepts : Tariff → Prop} {drawn : Series → Nat} {line : String}
    (reached : start.Reached accepts terms drawn)
    (run : start.Run (.comes v ((Service.call (.send line)).task terms) :: events) f)
    (served : ∀ e ∈ events, e.Served terms) (once : ∀ task, .comes v task ∉ events)
    (few : ∀ s, drawn s + draws events s < UInt64.size) :
    AllOrNothing terms line.toList start v
      (.comes v ((Service.call (.send line)).task terms) :: events) f := by
  obtain ⟨t, last, le, kept⟩ := reached.kept
  have few : ∀ s, last s + draws events s < UInt64.size := fun s =>
    Nat.lt_of_le_of_lt (Nat.add_le_add_right (le s) _) (few s)
  obtain ⟨t', handling⟩ := run.handling kept served once few
  constructor
  case spares =>
    intro deed g step other
    obtain ⟨_, _, _, -, handled, advances⟩ := handling.advances step
    generalize g.shop = shop at advances ⊢
    cases advances with
    | commits => exact absurd rfl other
    | spares _ store spares => exact ⟨store, fun h => spares (handled.applied.2 h)⟩
  case commits =>
    intro g step
    obtain ⟨s, _, _, present, handled, advances⟩ := handling.advances step
    generalize g.shop = shop at advances ⊢
    cases advances with
    | commits first working prepared =>
        have due := handled.due handling.kept working prepared
        rw [handled.session.writes] at due ⊢
        exact ⟨handled.applied.1 first, s, _, present, due, rfl⟩
    | spares other => exact absurd rfl other
  case leaves =>
    intro g step
    cases step with
    | leaves present => exact f.spares_drop _
  case replies =>
    intro s answer present result
    obtain ⟨p, handled⟩ := handling.handled s present
    obtain ⟨reply, rfl, ends⟩ := handled.session.follows.ends result
    refine ⟨reply, rfl, fun success => ?_, fun failure => ?_⟩
    · cases happlied : p.applied with
      | none => cases success.symm.trans (ends.failure happlied)
      | some w => exact ⟨_, handled.committed w reply happlied (ends.success w happlied)⟩
    · cases happlied : p.applied with
      | none => exact handled.applied.1 happlied
      | some w => cases failure.symm.trans (ends.success w happlied).succeeds
  case clears =>
    intro ended
    refine ended.clear handling.kept.serves fun s answer present result => ?_
    obtain ⟨p, handled⟩ := handling.handled s present
    obtain ⟨reply, -, ends⟩ := handled.session.follows.ends result
    rw [← handled.session.writes, ends.custody]
    rfl
  case alone => exact handling.unmixed

end Floor

end

/-- The reply that is answered to a request line. -/
def Script.Answer.reply? : Answer → Option Reply
  | .reply r => some r
  | _ => none

/-- An item is registered and rented. -/
def lending : List (Move Nat Answer) :=
  servings ⟨.standard, .memory⟩
    [(0, .register (.new 1 "Heat")), (1, .call (.rent 7 1))] [(0, 2), (1, 30)] []

/-- The floor on which an item is lent. -/
def Floor.lent : Floor Nat Answer :=
  ((ofShop (.opened (.empty .memory) .fresh 100 .epoch)).follow lending).2

/-- The item is returned: the request is answered by success and has committed what was due. -/
theorem Floor.Run.all_or_nothing_return :
    let terms : Terms := ⟨.standard, .memory⟩
    let reply : Reply := .pay .settled Tariff.standard.baseFee
    ∃ events f s staged, AllOrNothing terms "PAY;1;7".toList lent 2 events f ∧
      f.sessions 2 = some s ∧ s.result? = some (.reply reply) ∧
      Committed terms "PAY;1;7".toList lent 2 events f reply staged := by
  intro terms reply
  let moves : List (Move Nat Answer) := List.replicate 60 (.goesOn 2)
  let asked := lent.put 2 lent.shop (.start ((Service.call (.send "PAY;1;7")).task terms))
  have goesOn : ∀ m ∈ moves, m = .goesOn 2 := fun m hm => List.eq_of_mem_replicate hm
  have once : ∀ task, .comes 2 task ∉ (asked.follow moves).1 := by
    intro task htask
    obtain ⟨m, hm, brings⟩ := mem_follow htask
    obtain rfl := goesOn m hm
    obtain ⟨deed, hdoes⟩ := brings
    cases hdoes
  have served : ∀ e ∈ (asked.follow moves).1, e.Served terms := served_of_serves fun m hm => by
    rw [goesOn m hm]
    trivial
  have reached : lent.Reached (fun _ => True) terms _ :=
    .of_sitting terms trivial 100 .epoch (by decide +kernel)
  let dawn : Floor Nat Answer := ofShop (.opened (.empty .memory) .fresh 100 .epoch)
  have few (s : Series) :
      0 + draws (dawn.follow lending).1 s + draws (asked.follow moves).1 s < UInt64.size := by
    have first := draws_follow_le dawn lending s
    have second := draws_follow_le asked moves s
    rw [Nat.zero_add]
    exact Nat.lt_of_le_of_lt (Nat.add_le_add first second) (by decide +kernel)
  have absent : lent.sessions 2 = none := Option.isNone_iff_eq_none.1 (by decide +kernel)
  have h := Run.all_or_nothing reached (.cons (.comes absent) (asked.run_follow moves)) served once
    few
  have answered : (((asked.follow moves).2.sessions 2).bind fun s =>
      s.result?.bind Answer.reply?) = some reply := by decide +kernel
  obtain ⟨s, present, hreply⟩ := Option.bind_eq_some_iff.1 answered
  obtain ⟨answer, result, hanswer⟩ := Option.bind_eq_some_iff.1 hreply
  obtain ⟨_, rfl, committed, -⟩ := h.replies s answer present result
  obtain rfl := Option.some.inj hanswer
  obtain ⟨staged, committed⟩ := committed rfl
  exact ⟨_, _, s, staged, h, present, result, committed⟩

end RentalDesk
