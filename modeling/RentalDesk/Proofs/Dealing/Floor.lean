import RentalDesk.Proofs.AppendOnly
import RentalDesk.Proofs.Dealing.Deals

/-!
# Dealings on the floor

Everybody on the floor is at some dealing, and is watched. A regard is what is said of the rows and
of everybody at work, given all readings of the clock so far. It has to be kept by an action for the
rows, for the one who does it, and for the others, who hold other locks. By `Floor.Run.dealt` it is
then true after every run. In particular, what all deals keep holds of the rows after every run.
-/

namespace RentalDesk

/-! ## Readings of the clock -/

def Action.reading? (action : Action) (answer : action.Answer) : Option Instant :=
  match action, answer with
  | .now, time => some time
  | _, _ => none

section

variable {ν ρ : Type}

def Event.reading? : Event ν ρ → Option Instant
  | .does _ (.did action answer) => action.reading? answer
  | _ => none

/-- What was read on the clock, the oldest reading first. -/
def readings (events : List (Event ν ρ)) : List Instant := events.filterMap Event.reading?

theorem readings_append (events more : List (Event ν ρ)) :
    readings (events ++ more) = readings events ++ readings more := List.filterMap_append

end

/-! ## Watched sessions -/

/-- The watch is over the session, and it is known of nothing but dealings. -/
structure Session.Watched {ρ : Type} (s : Session ρ) (terms : Terms) (t : Tables)
    (last : Series → Nat) (w : Watch) : Prop where
  writes : w.custody.writes = s.writes
  fits : Policy.history.Fits terms.medium t last w.custody
  follows : s.Follows (dealing terms) w fun _ _ => True

/-- Whoever is at a dealing keeps to the policy of the desk. -/
theorem Task.Follows.custody {α : Type} {terms : Terms} {task : Task α} {w : Watch}
    {ends : α → Watch → Prop} (h : task.Follows (dealing terms) w ends) :
    task.Follows (Policy.history.discipline terms.medium) w.custody fun _ _ => True := by
  induction task generalizing w with
  | done a => trivial
  | act action next ih =>
      refine ⟨h.1.1, fun answer c answers => ?_⟩
      have rest := ih answer (h.2 answer _ ⟨c, answers, rfl⟩)
      rwa [Watch.custody_after] at rest
  | acquire key next ih => exact fun granted c grants => ih granted (h granted _ ⟨c, grants, rfl⟩)

/-- Somebody does an action, and is watched on. -/
structure Watch.Acts (terms : Terms) (t : Tables) (w : Watch) (action : Action)
    (answer : action.Answer) (w' : Watch) : Prop where
  keyed : t.Keyed
  fits : ∃ last, Policy.history.Fits terms.medium t last w.custody
  permits : (dealing terms).permits w action
  /-- The identifier zero is never drawn. -/
  drawn : ∀ s, w'.custody.writes.drew s 0 → w.custody.writes.drew s 0
  after : ∃ writes,
    w' = w.after action answer (Policy.history.after terms.medium t w.custody writes action)

/-- What is said of the rows and of everybody at work, given all readings of the clock so far. -/
structure Regard (ν : Type) (terms : Terms) where
  rows : Tables → List Instant → Prop
  party : ν → Watch → Tables → List Instant → Prop
  /-- It does not matter what locks somebody holds. -/
  hold : ∀ {v w t times ticket}, party v w t times →
    party v (w.hand { w.custody with writes := w.custody.writes.hold ticket }) t times
  deals : ∀ {v w w' t times action answer}, rows t times → party v w t times →
    w.Acts terms t action answer w' →
      rows (t.performed w.custody.writes action) (times ++ (action.reading? answer).toList)
  acts : ∀ {v w w' t times action answer}, rows t times → party v w t times →
    w.Acts terms t action answer w' →
      party v w' (t.performed w.custody.writes action) (times ++ (action.reading? answer).toList)
  others : ∀ {v w w' t times action answer u x last}, rows t times → party v w t times →
    w.Acts terms t action answer w' → party u x t times →
    Policy.history.Fits terms.medium t last x.custody →
    (∀ key, w.custody.writes.locks key → x.custody.writes.locks key = false) →
      party u x (t.performed w.custody.writes action) (times ++ (action.reading? answer).toList)

/-- Whoever comes is at a dealing, and what is said of everybody is true of him. -/
def Event.Dealing {ν ρ : Type} {terms : Terms} (r : Regard ν terms) : Event ν ρ → Prop
  | .comes v task => ∃ renter?, task.Deals terms renter? ∧
      ∀ t times, r.party v (.start renter?) t times
  | _ => True

theorem Event.Dealing.heeded {ν ρ : Type} {terms : Terms} {r : Regard ν terms} {e : Event ν ρ}
    (h : e.Dealing r) : e.Heeded .history terms.medium := by
  cases e with
  | comes v task =>
      obtain ⟨renter?, deals, -⟩ := h
      exact Task.Follows.custody deals
  | _ => trivial

/-- Whoever is served is at a dealing. -/
theorem Event.Served.dealing {ν : Type} {terms : Terms} {e : Event ν Script.Answer}
    (h : e.Served terms) {r : Regard ν terms}
    (start : ∀ v renter? t times, r.party v (.start renter?) t times) : e.Dealing r := by
  cases e with
  | comes v task =>
      obtain ⟨service, rfl⟩ := h
      exact ⟨_, service.deals terms, start v _⟩
  | _ => trivial

namespace Floor

variable {ν ρ : Type} {terms : Terms} {r : Regard ν terms} {f g : Floor ν ρ}
  {t t' : Tables} {last last' : Series → Nat} {times times' : List Instant}

/-- Everybody is watched, and what is said of the rows and of everybody is true. -/
structure Dealt (f : Floor ν ρ) (r : Regard ν terms) (t : Tables) (last : Series → Nat)
    (times : List Instant) : Prop where
  kept : f.Kept .history terms.medium t last
  rows : r.rows t times
  sessions : ∀ v s, f.sessions v = some s → ∃ w, s.Watched terms t last w ∧ r.party v w t times

namespace Dealt

variable [DecidableEq ν] {v : ν} {s s' : Session ρ} {shop : Shop} {e : Event ν ρ}

/-- A step of a session, given what it means for the session itself and for all others. -/
theorem put (h : f.Dealt r t last times)
    (kept : (f.put v shop s').Kept .history terms.medium t' last') (rows : r.rows t' times')
    (own : ∃ w, s'.Watched terms t' last' w ∧ r.party v w t' times')
    (others : ∀ u x w, u ≠ v → f.sessions u = some x → x.Watched terms t last w →
      r.party u w t times → x.Watched terms t' last' w ∧ r.party u w t' times') :
    (f.put v shop s').Dealt r t' last' times' where
  kept := kept
  rows := rows
  sessions u x hx := by
    by_cases hu : u = v
    · subst hu
      obtain rfl := Option.some.inj ((put_sessions_self ..).symm.trans hx)
      exact own
    · rw [put_sessions_of_ne f hu] at hx
      obtain ⟨w, watched, party⟩ := h.sessions u x hx
      exact ⟨w, others u x w hu hx watched party⟩

theorem act (h : f.Dealt r t last times) {writes : WriteSet} {action : Action}
    {next : action.Answer → Task ρ}
    (present : f.sessions v = some ⟨writes, .running (.act action next)⟩)
    (few : ∀ s, (Deed.did action (f.shop.perform writes action).1).tally last s < UInt64.size) :
    (f.put v (f.shop.perform writes action).2.1 ⟨(f.shop.perform writes action).2.2,
      .running (next (f.shop.perform writes action).1)⟩).Dealt r (t.performed writes action)
      ((Deed.did action (f.shop.perform writes action).1).tally last)
      (times ++ (action.reading? (f.shop.perform writes action).1).toList) := by
  have sound := Policy.history_sound terms.medium
  obtain ⟨w, ⟨rfl, fits, permits, goes⟩, party⟩ := h.sessions v _ present
  have acts : w.Acts terms t action (f.shop.perform w.custody.writes action).1
      (w.after action (f.shop.perform w.custody.writes action).1
        (Policy.history.after terms.medium t w.custody
          (f.shop.perform w.custody.writes action).2.2 action)) := by
    refine ⟨h.kept.keyed, ⟨last, fits⟩, permits, fun s hdrew => ?_, _, rfl⟩
    rw [Watch.custody_after, Policy.writes_after] at hdrew
    exact (h.kept.counts.drew_perform few rfl hdrew).resolve_right fun h => absurd h.1 (by simp)
  refine h.put (h.kept.act sound present few) (r.deals h.rows party acts)
    ⟨_, ⟨?_, ?_, ?_⟩, r.acts h.rows party acts⟩ ?_
  · rw [Watch.custody_after]
    exact Policy.history.writes_after terms.medium t w.custody f.shop action
  · rw [Watch.custody_after]
    exact fits.act sound h.kept.keyed h.kept.store h.kept.counts permits.1 few
  · exact goes _ _ ⟨_, ⟨f.shop, t, last, h.kept.store, h.kept.keyed, fits, rfl, rfl⟩, rfl⟩
  · intro u x w' hu hx watched party'
    have locks : ∀ key, w.custody.writes.locks key → w'.custody.writes.locks key = false := by
      rw [watched.writes]
      exact h.kept.locks_apart (Ne.symm hu) present hx
    have spared := h.kept.spares present (Ne.symm hu) hx watched.writes
    exact ⟨⟨watched.writes, watched.fits.spared spared (Deed.le_tally _ last), watched.follows⟩,
      r.others h.rows party acts party' watched.fits locks⟩

/-- What a session does by going on with a row, asking for one, being granted one or giving up. -/
theorem wait (h : f.Dealt r t last times) (present : f.sessions v = some s)
    (kept : (f.put v shop s').Kept .history terms.medium t last)
    (own : ∀ w, s.Watched terms t last w → r.party v w t times →
      ∃ w', s'.Watched terms t last w' ∧ r.party v w' t times) :
    (f.put v shop s').Dealt r t last times := by
  obtain ⟨w, watched, party⟩ := h.sessions v s present
  exact h.put kept h.rows (own w watched party) fun _ _ _ _ _ watched party => ⟨watched, party⟩

theorem does (h : f.Dealt r t last times) {deed : Deed} (present : f.sessions v = some s)
    (step : Session.Step f.shop s deed shop s') (few : ∀ s, deed.tally last s < UInt64.size) :
    (f.put v shop s').Dealt r (f.performed t (.does v deed)) (deed.tally last)
      (times ++ (Event.reading? (.does v deed : Event ν ρ)).toList) := by
  have kept := h.kept.does (Policy.history_sound terms.medium) present step few
  cases step with
  | act =>
      rw [performed, present, Option.elim_some]
      exact h.act present few
  | pass holds =>
      change Dealt _ r _ _ (times ++ [])
      rw [List.append_nil]
      refine h.wait present kept fun w watched party =>
        ⟨w, ⟨watched.writes, watched.fits, ?_⟩, party⟩
      exact watched.follows true w ⟨_, .inl ⟨watched.writes ▸ holds, rfl⟩, rfl⟩
  | ask holds =>
      change Dealt _ r _ _ (times ++ [])
      rw [List.append_nil]
      exact h.wait present kept fun w watched party =>
        ⟨w, ⟨watched.writes, watched.fits, watched.follows⟩, party⟩
  | @take writes ticket deadline next locks granted =>
      change Dealt _ r _ _ (times ++ [])
      rw [List.append_nil]
      refine h.wait present kept fun w watched party =>
        ⟨_, ⟨?_, watched.fits.hold ticket,
          watched.follows true _ ⟨_, .inr ⟨ticket, rfl, rfl⟩, rfl⟩⟩, r.hold party⟩
      exact congrArg (·.hold ticket) watched.writes
  | giveUp =>
      change Dealt _ r _ _ (times ++ [])
      rw [List.append_nil]
      exact h.wait present kept fun w watched party =>
        ⟨w, ⟨watched.writes, watched.fits, watched.follows false w ⟨_, rfl, rfl⟩⟩, party⟩

theorem step (h : f.Dealt r t last times) (step : f.Step e g) (dealing : e.Dealing r)
    (few : ∀ s, e.tally last s < UInt64.size) :
    g.Dealt r (f.performed t e) (e.tally last) (times ++ e.reading?.toList) := by
  have kept := h.kept.step (Policy.history_sound terms.medium) step dealing.heeded few
  cases step with
  | comes absent =>
      change Dealt _ r _ _ (times ++ [])
      rw [List.append_nil]
      obtain ⟨renter?, deals, party⟩ := dealing
      exact h.put kept h.rows ⟨_, ⟨rfl, .start, deals⟩, party t times⟩
        fun _ _ _ _ _ watched party => ⟨watched, party⟩
  | does present step => exact h.does present step few
  | @leaves v s present =>
      change Dealt _ r _ _ (times ++ [])
      rw [List.append_nil]
      refine ⟨kept, h.rows, fun u x hx => ?_⟩
      have hu : u ≠ v := by
        rintro rfl
        cases (remove_sessions_self ..).symm.trans hx
      rw [remove_sessions_of_ne f hu] at hx
      exact h.sessions u x hx
  | turns =>
      change Dealt _ r _ _ (times ++ [])
      rw [List.append_nil]
      exact ⟨kept, h.rows, h.sessions⟩

end Dealt

/-- A shop that is opened is a floor without anybody at work. -/
theorem dealt_ofShop {shop : Shop} (h : shop.Opened terms.medium t last) (rows : r.rows t times) :
    (ofShop shop : Floor ν ρ).Dealt r t last times where
  kept := kept_ofShop h
  rows := rows
  sessions v s present := by cases present

/-- What a regard says is true after every run of dealings. -/
theorem Run.dealt [DecidableEq ν] {events : List (Event ν ρ)} (run : f.Run events g)
    (h : f.Dealt r t last times) (dealing : ∀ e ∈ events, e.Dealing r)
    (few : ∀ s, last s + draws events s < UInt64.size) :
    ∃ t', g.Dealt r t' (fun s => last s + draws events s) (times ++ readings events) := by
  induction run with
  | nil =>
      rw [readings, List.filterMap_nil, List.append_nil]
      exact ⟨t, h⟩
  | @snoc events g g' e run step ih =>
      rw [List.forall_mem_append] at dealing
      obtain ⟨t', dealt⟩ := ih dealing.1 (few_of_append few).1
      have after := dealt.step step (dealing.2 e List.mem_cons_self) (by
        rw [Event.tally_draws]
        exact few)
      rw [Event.tally_draws, List.append_assoc] at after
      rw [readings_append]
      have hlast : readings [e] = e.reading?.toList := by
        cases h : e.reading? <;> simp [readings, h]
      exact ⟨_, hlast ▸ after⟩

end Floor

end RentalDesk
