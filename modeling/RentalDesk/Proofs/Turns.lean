import RentalDesk.House
import RentalDesk.Proofs.Floor

/-!
# Desks on the floor

The sessions of a desk stand on a floor, each under its name. Whatever the desk does by itself, its
turns and its waits, is a run of that floor, in which nobody comes or leaves and the clock stands
still. So what holds after every run of the floor holds at every desk. The converse is false: on
the floor a session can be interrupted between any two of its steps.

Names have to be distinct. A desk drops the session of a name before it opens another one.
-/

namespace RentalDesk

variable {ν ρ : Type}

namespace Session

variable {shop shop' : Shop} {s s' : Session ρ}

/-- Some steps of a session while nobody else moves. -/
inductive Walk : Shop → Session ρ → Shop → Session ρ → Prop
  | stay {shop : Shop} {s : Session ρ} : Walk shop s shop s
  | on {shop shop' shop'' : Shop} {s s' s'' : Session ρ} {deed : Deed}
      (step : Step shop s deed shop' s') (walk : Walk shop' s' shop'' s'') : Walk shop s shop'' s''

theorem walk_advance (shop : Shop) (writes : WriteSet) (task : Task ρ) :
    Walk shop ⟨writes, .running task⟩ (advance shop writes task).1
      (advance shop writes task).2 := by
  induction task generalizing shop writes with
  | done result => exact .stay
  | act action next ih => exact .on .act (ih ..)
  | acquire key next ih =>
      rw [advance]
      split
      · next holds => exact .on (.pass holds) (ih ..)
      · next holds =>
          refine .on (.ask holds) ?_
          simp only
          split
          · next granted => exact .on (.take granted) (ih ..)
          · split
            · exact .on .giveUp (ih ..)
            · exact .stay

theorem walk_of_turn (h : s.turn? shop = some (shop', s')) : Walk shop s shop' s' := by
  obtain ⟨writes, stage⟩ := s
  cases stage with
  | running task =>
      have hadvance : advance shop writes task = (shop', s') := by
        cases task with
        | done result => cases h
        | act action next => exact Option.some.inj h
        | acquire key next => exact Option.some.inj h
      have walk := walk_advance shop writes task
      rwa [hadvance] at walk
  | waiting ticket deadline next =>
      obtain ⟨locks, granted, hadvance⟩ := Option.map_eq_some_iff.1 h
      have walk := walk_advance { shop with locks } (writes.hold ticket) (next true)
      rw [hadvance] at walk
      exact .on (.take granted) walk

theorem walk_expire (shop : Shop) (s : Session ρ) :
    Walk shop s (s.expire shop).1 (s.expire shop).2 := by
  rw [expire]
  split
  · next h => exact walk_of_turn h
  · next h =>
      obtain ⟨writes, stage⟩ := s
      obtain rfl := h
      exact .on .giveUp (walk_advance ..)
  · exact .stay

/-- A step leaves the clock alone, and does not change which store calls fail. -/
theorem Step.clock_failing {deed : Deed} (step : Step shop s deed shop' s') :
    shop'.clock = shop.clock ∧ shop'.failing = shop.failing := by
  cases step with
  | @act writes action next => exact shop.perform_clock writes action
  | pass => exact ⟨rfl, rfl⟩
  | ask => exact ⟨rfl, rfl⟩
  | take => exact ⟨rfl, rfl⟩
  | giveUp => exact ⟨rfl, rfl⟩

theorem Walk.clock_failing (walk : Walk shop s shop' s') :
    shop'.clock = shop.clock ∧ shop'.failing = shop.failing := by
  induction walk with
  | stay => exact ⟨rfl, rfl⟩
  | on step _ ih => exact ⟨ih.1.trans step.clock_failing.1, ih.2.trans step.clock_failing.2⟩

end Session

/-- What a desk of a shop does by itself: sessions take steps, and time passes on the timer. -/
def Event.Inner (shop : Shop) : Event ν ρ → Prop
  | .does _ _ => True
  | .turns o => o.clock = shop.clock ∧ o.failing = shop.failing
  | _ => False

theorem Event.Inner.of_eq {shop shop' : Shop} {e : Event ν ρ} (h : e.Inner shop')
    (clock : shop'.clock = shop.clock) (failing : shop'.failing = shop.failing) : e.Inner shop := by
  cases e with
  | does v deed => trivial
  | turns o => exact ⟨h.1.trans clock, h.2.trans failing⟩
  | comes v task => exact h
  | leaves v => exact h

theorem Desk.not_mem_of_distinct {name : ν} {before after : List (ν × Session ρ)} {s : Session ρ}
    (distinct : ((before ++ (name, s) :: after).map (·.1)).Nodup) : name ∉ before.map (·.1) := by
  rw [List.map_append, List.map_cons] at distinct
  exact fun h => (List.nodup_append.1 distinct).2.2 name h name List.mem_cons_self rfl

section

variable [DecidableEq ν]

namespace Floor

variable {f : Floor ν ρ} {v : ν} {s s' : Session ρ} {shop : Shop}

theorem put_self (present : f.sessions v = some s) : f.put v f.shop s = f := by
  rw [put, ← present, Function.update_eq_self]

theorem put_put (f : Floor ν ρ) (v : ν) (shop shop' : Shop) (s s' : Session ρ) :
    (f.put v shop s).put v shop' s' = f.put v shop' s' := by
  rw [put, put, put, Function.update_idem]

/-- A walk is a run in which nobody else moves. If `P` stays true of the session by every step, and
`Q` is then true of the deed, `Q` is true of all that happens. -/
theorem run_of_walk_keeping {P : Session ρ → Prop} {Q : Deed → Prop}
    (keeps : ∀ {shop shop' : Shop} {s s' : Session ρ} {deed : Deed},
      Session.Step shop s deed shop' s' → P s → Q deed ∧ P s')
    (present : f.sessions v = some s) (holds : P s) (walk : Session.Walk f.shop s shop s') :
    ∃ events, (∀ e ∈ events, ∃ deed : Deed, e = .does v deed ∧ Q deed) ∧
      f.Run events (f.put v shop s') := by
  generalize hshop : f.shop = before at walk
  induction walk generalizing f with
  | stay =>
      rw [← hshop, put_self present]
      exact ⟨[], fun e he => (List.not_mem_nil he).elim, .nil⟩
  | @on before mid shop s r s' deed step walk ih =>
      subst hshop
      obtain ⟨hdeed, holds⟩ := keeps step holds
      obtain ⟨events, hevents, run⟩ := ih (f := f.put v mid r) (put_sessions_self ..) holds rfl
      rw [put_put] at run
      exact ⟨.does v deed :: events, List.forall_mem_cons.2 ⟨⟨deed, rfl, hdeed⟩, hevents⟩,
        .cons (.does present step) run⟩

theorem run_of_walk (present : f.sessions v = some s) (walk : Session.Walk f.shop s shop s') :
    ∃ events, (∀ e ∈ events, e.Inner f.shop) ∧ f.Run events (f.put v shop s') := by
  obtain ⟨events, hevents, run⟩ := run_of_walk_keeping (P := fun _ => True) (Q := fun _ => True)
    (fun _ _ => ⟨trivial, trivial⟩) present trivial walk
  refine ⟨events, fun e he => ?_, run⟩
  obtain ⟨deed, rfl, -⟩ := hevents e he
  trivial

end Floor

namespace Desk

/-- The floor on which the sessions of a desk stand. -/
def floor (d : Desk ν ρ) : Floor ν ρ := ⟨d.shop, d.session?⟩

def names (d : Desk ν ρ) : List ν := d.sessions.map (·.1)

/-- One desk comes from the other by what a desk does by itself. -/
structure Leads (d d' : Desk ν ρ) : Prop where
  names : d'.names = d.names
  clock : d'.shop.clock = d.shop.clock
  failing : d'.shop.failing = d.shop.failing
  run : ∃ events, (∀ e ∈ events, e.Inner d.shop) ∧ d.floor.Run events d'.floor

variable {d d' d'' : Desk ν ρ} {name : ν}

theorem Leads.refl (d : Desk ν ρ) : d.Leads d :=
  ⟨rfl, rfl, rfl, [], fun _ he => (List.not_mem_nil he).elim, .nil⟩

theorem Leads.trans (h : d.Leads d') (h' : d'.Leads d'') : d.Leads d'' := by
  obtain ⟨events, inner, run⟩ := h.run
  obtain ⟨more, inner', rest⟩ := h'.run
  refine ⟨h'.names.trans h.names, h'.clock.trans h.clock, h'.failing.trans h.failing,
    events ++ more, fun e he => ?_, run.append rest⟩
  rcases List.mem_append.1 he with he | he
  · exact inner e he
  · exact (inner' e he).of_eq h.clock h.failing

/-- Where the name of a session in the middle stands. -/
theorem session?_middle {shop : Shop} {s : Session ρ} {before after : List (ν × Session ρ)}
    (first : name ∉ before.map (·.1)) :
    (⟨shop, before ++ (name, s) :: after⟩ : Desk ν ρ).session? name = some s := by
  have hnone : before.find? (·.1 = name) = none :=
    List.find?_eq_none.2 fun x hx => by
      simpa using fun hname => first (List.mem_map.2 ⟨x, hx, hname⟩)
  rw [session?, List.find?_append, hnone, Option.none_or, List.find?_cons_of_pos (by simp),
    Option.map_some]

/-- Only one session is another one than before. -/
theorem floor_middle (shop shop' : Shop) (s s' : Session ρ) {before after : List (ν × Session ρ)}
    (first : name ∉ before.map (·.1)) :
    (⟨shop', before ++ (name, s') :: after⟩ : Desk ν ρ).floor =
      (⟨shop, before ++ (name, s) :: after⟩ : Desk ν ρ).floor.put name shop' s' := by
  rw [floor, floor, Floor.put]
  congr 1
  funext w
  by_cases hw : w = name
  · subst hw
    rw [Function.update_self]
    exact session?_middle first
  · have hne : name ≠ w := fun h => hw h.symm
    rw [Function.update_of_ne hw]
    simp only [session?, List.find?_append, List.find?_cons, hne, decide_false]

theorem leads_of_walk {shop shop' : Shop} {s s' : Session ρ} {before after : List (ν × Session ρ)}
    (first : name ∉ before.map (·.1)) (walk : Session.Walk shop s shop' s') :
    (⟨shop, before ++ (name, s) :: after⟩ : Desk ν ρ).Leads
      ⟨shop', before ++ (name, s') :: after⟩ := by
  obtain ⟨hclock, hfailing⟩ := walk.clock_failing
  refine ⟨by simp [names], hclock, hfailing, ?_⟩
  rw [floor_middle shop shop' s s' first]
  exact Floor.run_of_walk (f := (⟨shop, before ++ (name, s) :: after⟩ : Desk ν ρ).floor)
    (session?_middle first) walk

/-- A round of turns behind the sessions that have had theirs. -/
theorem leads_turns (shop : Shop) (before sessions : List (ν × Session ρ))
    (distinct : ((before ++ sessions).map (·.1)).Nodup) :
    (⟨shop, before ++ sessions⟩ : Desk ν ρ).Leads
      ⟨(turns shop sessions).1, before ++ (turns shop sessions).2.1⟩ := by
  -- Names are looked up from the front, so the sessions before are carried along.
  induction sessions generalizing shop before with
  | nil => exact .refl _
  | cons session sessions ih =>
      obtain ⟨name, s⟩ := session
      rw [turns]
      split
      · next shop' s' hturn =>
          have rest := ih shop' (before ++ [(name, s')]) (by simpa using distinct)
          rw [List.append_assoc, List.append_assoc] at rest
          have walk := Session.walk_of_turn hturn
          exact .trans (leads_of_walk (not_mem_of_distinct distinct) walk) rest
      · have rest := ih shop (before ++ [(name, s)]) (by simpa using distinct)
        rwa [List.append_assoc, List.append_assoc] at rest

theorem leads_rounds (n : Nat) (distinct : d.names.Nodup) : d.Leads (rounds n d) := by
  induction n generalizing d with
  | zero => exact .refl d
  | succ n ih =>
      have round := leads_turns d.shop [] d.sessions distinct
      simp only [rounds]
      split
      · exact round.trans (ih (round.names.symm ▸ distinct))
      · exact round

theorem leads_settle (distinct : d.names.Nodup) : d.Leads d.settle := leads_rounds _ distinct

/-- The end of one wait, behind the sessions that do not wait with the ticket. -/
theorem leads_expireTicket (ticket : Ticket) (shop : Shop) (before sessions : List (ν × Session ρ))
    (distinct : ((before ++ sessions).map (·.1)).Nodup) :
    (⟨shop, before ++ sessions⟩ : Desk ν ρ).Leads
      ⟨(expireTicket ticket shop sessions).1, before ++ (expireTicket ticket shop sessions).2⟩ := by
  induction sessions generalizing before with
  | nil => exact .refl _
  | cons session sessions ih =>
      obtain ⟨name, s⟩ := session
      rw [expireTicket]
      split
      · exact leads_of_walk (not_mem_of_distinct distinct) (Session.walk_expire shop s)
      · have rest := ih (before ++ [(name, s)]) (by simpa using distinct)
        rwa [List.append_assoc, List.append_assoc] at rest

theorem leads_expire (waits : List (Ticket × Nat)) (distinct : d.names.Nodup) :
    let expired := waits.foldl (fun (shop, sessions) wait => expireTicket wait.1 shop sessions)
      (d.shop, d.sessions)
    d.Leads ⟨expired.1, expired.2⟩ := by
  induction waits generalizing d with
  | nil => exact .refl d
  | cons wait waits ih =>
      have first := leads_expireTicket wait.1 d.shop [] d.sessions distinct
      exact first.trans (ih (first.names.symm ▸ distinct))

theorem leads_timer (d : Desk ν ρ) (time : Nat) :
    d.Leads ⟨{ d.shop with timer := time }, d.sessions⟩ :=
  ⟨rfl, rfl, rfl, [.turns ⟨d.shop.clock, time, d.shop.failing, d.shop.returns⟩],
    fun _ he => List.mem_singleton.1 he ▸ ⟨rfl, rfl⟩, .snoc .nil .turns⟩

theorem leads_elapse (time : Nat) (distinct : d.names.Nodup) : d.Leads (d.elapse time) := by
  have timer := leads_timer d (max d.shop.timer time)
  have expired := timer.trans (leads_expire (d.endedWaits time) distinct)
  exact expired.trans (leads_settle (expired.names.symm ▸ distinct))

theorem leads_pass (millis : Nat) (distinct : d.names.Nodup) : d.Leads (d.pass millis) :=
  leads_elapse _ distinct

theorem leads_await (name : ν) (n : Nat) (distinct : d.names.Nodup) :
    d.Leads (await name n d) := by
  induction n generalizing d with
  | zero => exact .refl d
  | succ n ih =>
      rw [await]
      split
      · exact .refl d
      · split
        · next deadline _ =>
            have first := leads_elapse deadline distinct
            exact first.trans (ih (first.names.symm ▸ distinct))
        · exact .refl d

theorem leads_join (name : ν) (distinct : d.names.Nodup) : d.Leads (d.join name).1 := by
  have settled := leads_settle distinct
  exact settled.trans (leads_await name _ (settled.names.symm ▸ distinct))

/-! ## Sessions of a desk -/

theorem session?_eq_none (absent : name ∉ d.names) : d.session? name = none := by
  rw [session?, Option.map_eq_none_iff, List.find?_eq_none]
  exact fun x hx => by simpa using fun hname => absent (List.mem_map.2 ⟨x, hx, hname⟩)

theorem exists_session (present : name ∈ d.names) : ∃ s, d.session? name = some s := by
  obtain ⟨x, hx, hname⟩ := List.mem_map.1 present
  have hsome : (d.sessions.find? (·.1 = name)).isSome :=
    List.find?_isSome.2 ⟨x, hx, by simpa using hname⟩
  obtain ⟨y, hy⟩ := Option.isSome_iff_exists.1 hsome
  exact ⟨y.2, by rw [session?, hy, Option.map_some]⟩

/-- Whoever is dropped leaves the floor. -/
theorem floor_drop {s : Session ρ} (present : d.session? name = some s) :
    (d.drop name).floor = d.floor.remove name (s.drop d.shop) := by
  rw [drop, present, floor, Floor.remove]
  congr 1
  funext w
  by_cases hw : w = name
  · subst hw
    rw [Function.update_self]
    refine session?_eq_none fun h => ?_
    obtain ⟨x, hx, hname⟩ := List.mem_map.1 h
    simpa [hname] using (List.mem_filter.1 hx).2
  · rw [Function.update_of_ne hw]
    change _ = d.session? w
    rw [session?, session?, List.find?_filter]
    congr 2
    funext x
    by_cases hx : x.1 = w
    · simp [hx, hw]
    · simp [hx]

/-- A new session comes to the floor. -/
theorem floor_start {task : Task ρ} (absent : name ∉ d.names) :
    (d.start name task).floor = d.floor.put name d.shop (.start task) := by
  have hdrop : d.drop name = d := by rw [drop, session?_eq_none absent]
  rw [start, hdrop, floor, Floor.put]
  congr 1
  funext w
  rw [session?, List.find?_append]
  by_cases hw : w = name
  · subst hw
    have hnone := Option.map_eq_none_iff.1 (session?_eq_none absent)
    rw [Function.update_self, hnone, Option.none_or]
    simp
  · have hne : name ≠ w := fun h => hw h.symm
    rw [Function.update_of_ne hw]
    simp [hne, floor, session?]

/-- A task that a desk runs to its end is a visitor on the floor, who comes, ends with the result
of the task, and leaves. -/
theorem run_floor (name : ν) (task : Task ρ) (distinct : d.names.Nodup) (absent : name ∉ d.names) :
    ∃ events g s, (∀ e ∈ events, e.Inner d.shop) ∧
      d.floor.Run (.comes name task :: events) g ∧ g.sessions name = some s ∧
      (d.run name task).2 = s.result? ∧
      (d.run name task).1.floor = g.remove name (s.drop g.shop) := by
  have hdrop : d.drop name = d := by rw [drop, session?_eq_none absent]
  have hnames : (d.start name task).names = d.names ++ [name] := by
    rw [start, hdrop, names, List.map_append]
    rfl
  have distinct' : (d.start name task).names.Nodup := by
    rw [hnames]
    exact List.nodup_append.2 ⟨distinct, by simp, fun a ha b hb hab =>
      absurd (List.mem_singleton.1 hb ▸ hab ▸ ha) absent⟩
  have joined := leads_join name distinct'
  obtain ⟨events, inner, run⟩ := joined.run
  have stays : name ∈ ((d.start name task).join name).1.names := by
    rw [joined.names, hnames]
    exact List.mem_append_right _ (List.mem_singleton_self name)
  obtain ⟨s, present⟩ := exists_session stays
  rw [floor_start absent] at run
  refine ⟨events, _, s, fun e he => ?_, .cons (.comes (session?_eq_none absent)) run, present, ?_,
    floor_drop present⟩
  · have hin := inner e he
    rwa [start, hdrop] at hin
  · rw [Desk.run]
    exact (congrArg (·.bind Session.result?) present).trans (Option.bind_some ..)

end Desk

end

/-- The same in a shop in which nobody else is at the desk. -/
theorem Shop.run_floor (shop : Shop) (task : Task ρ) :
    ∃ events g s, (∀ e ∈ events, e.Inner shop) ∧
      (Floor.ofShop shop : Floor Unit ρ).Run (.comes () task :: events) g ∧
      g.sessions () = some s ∧ shop.run task = (s.drop g.shop, s.result?) := by
  obtain ⟨events, g, s, inner, run, present, hresult, hfloor⟩ :=
    (Desk.ofShop shop : Desk Unit ρ).run_floor () task List.nodup_nil List.not_mem_nil
  exact ⟨events, g, s, inner, run, present, Prod.ext (congrArg Floor.shop hfloor) hresult⟩

end RentalDesk
