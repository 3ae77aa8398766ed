import RentalDesk.Proofs.Chronicle

/-!
# Schedules

A schedule says who is to move next. It can be followed on any floor: a move that is not possible
is left out, and what happens by the others is a run. Every run follows some schedule, so runs and
schedules say the same, and a schedule can be computed.
-/

namespace RentalDesk

/-- What is to happen next on a floor. -/
inductive Move (ν ρ : Type) where
  | comes (name : ν) (task : Task ρ)
  | goesOn (name : ν)
  | givesUp (name : ν)
  | leaves (name : ν)
  | turns (o : Outside)

def Move.Brings {ν ρ : Type} (e : Event ν ρ) : Move ν ρ → Prop
  | .comes v task => e = .comes v task
  | .goesOn v | .givesUp v => ∃ deed, e = .does v deed
  | .leaves v => e = .leaves v
  | .turns o => e = .turns o

/-- Whose session a move is about. -/
def Move.name? {ν ρ : Type} : Move ν ρ → Option ν
  | .comes v _ | .goesOn v | .givesUp v | .leaves v => some v
  | .turns _ => none

theorem Move.Brings.name? {ν ρ : Type} {e : Event ν ρ} {m : Move ν ρ} (h : m.Brings e) :
    e.name? = m.name? := by
  cases m with
  | goesOn v | givesUp v =>
      obtain ⟨deed, rfl⟩ := h
      rfl
  | _ => exact h ▸ rfl

namespace Session

variable {ρ : Type} {shop shop' : Shop} {s s' : Session ρ} {deed : Deed}

/-- The next step of a session that does not give up, unless it is done or has to wait. -/
def goOn? (shop : Shop) (s : Session ρ) : Option (Deed × Shop × Session ρ) :=
  match s.stage with
  | .running (.done _) => none
  | .running (.act action next) =>
    let (answer, shop, writes) := shop.perform s.writes action
    some (.did action answer, shop, ⟨writes, .running (next answer)⟩)
  | .running (.acquire key next) =>
    if s.writes.holds key then some (.passed key, shop, ⟨s.writes, .running (next true)⟩)
    else
      let (ticket, locks) := shop.locks.request key
      some (.asked key, { shop with locks },
        ⟨s.writes, .waiting ticket (shop.timer + shop.lockWait) next⟩)
  | .waiting ticket _ next =>
    (shop.locks.grant? ticket).map fun locks =>
      (.took ticket, { shop with locks }, ⟨s.writes.hold ticket, .running (next true)⟩)

/-- The step of a session that gives up, if it waits. -/
def giveUp? (shop : Shop) (s : Session ρ) : Option (Deed × Shop × Session ρ) :=
  match s.stage with
  | .running _ => none
  | .waiting ticket _ next =>
    some (.gaveUp ticket, { shop with locks := shop.locks.giveBack ticket },
      ⟨s.writes, .running (next false)⟩)

theorem step_of_goOn (h : s.goOn? shop = some (deed, shop', s')) : Step shop s deed shop' s' := by
  obtain ⟨writes, stage⟩ := s
  cases stage with
  | running task =>
      cases task with
      | done result => cases h
      | act action next =>
          cases h
          exact .act
      | acquire key next =>
          simp only [goOn?] at h
          split at h
          · next holds =>
              cases h
              exact .pass holds
          · next holds =>
              cases h
              exact .ask holds
  | waiting ticket deadline next =>
      obtain ⟨locks, hgrant, hstep⟩ := Option.map_eq_some_iff.1 h
      cases hstep
      exact .take hgrant

theorem step_of_giveUp (h : s.giveUp? shop = some (deed, shop', s')) :
    Step shop s deed shop' s' := by
  obtain ⟨writes, stage⟩ := s
  cases stage with
  | running task => cases h
  | waiting ticket deadline next =>
      cases h
      exact .giveUp

theorem Step.moves (step : Step shop s deed shop' s') :
    s.goOn? shop = some (deed, shop', s') ∨ s.giveUp? shop = some (deed, shop', s') := by
  cases step with
  | act => exact .inl rfl
  | pass holds => exact .inl (if_pos holds)
  | ask holds => exact .inl (if_neg holds)
  | take granted =>
      refine .inl ?_
      simp only [goOn?, granted]
      rfl
  | giveUp => exact .inr rfl

end Session

namespace Floor

variable {ν ρ : Type} [DecidableEq ν] {f g : Floor ν ρ} {e : Event ν ρ} {events : List (Event ν ρ)}

/-- The event of a step of a session, and the floor after it. -/
def stepped (f : Floor ν ρ) (v : ν) (step : Deed × Shop × Session ρ) : Event ν ρ × Floor ν ρ :=
  (.does v step.1, f.put v step.2.1 step.2.2)

/-- What happens by a move, if it is possible. -/
def move? (f : Floor ν ρ) : Move ν ρ → Option (Event ν ρ × Floor ν ρ)
  | .comes v task =>
    match f.sessions v with
    | none => some (.comes v task, f.put v f.shop (.start task))
    | some _ => none
  | .goesOn v => (f.sessions v).bind fun s => (s.goOn? f.shop).map (f.stepped v)
  | .givesUp v => (f.sessions v).bind fun s => (s.giveUp? f.shop).map (f.stepped v)
  | .leaves v => (f.sessions v).map fun s => (.leaves v, f.remove v (s.drop f.shop))
  | .turns o => some (.turns o, { f with shop := f.shop.under o })

/-- What happens by a schedule, and the floor in the end. -/
def follow (f : Floor ν ρ) : List (Move ν ρ) → List (Event ν ρ) × Floor ν ρ
  | [] => ([], f)
  | m :: ms =>
    match f.move? m with
    | some (e, g) => (e :: (g.follow ms).1, (g.follow ms).2)
    | none => f.follow ms

theorem step_of_move {m : Move ν ρ} (h : f.move? m = some (e, g)) : f.Step e g := by
  cases m with
  | comes v task =>
      rw [move?] at h
      split at h
      · next absent =>
          cases h
          exact .comes absent
      · cases h
  | goesOn v =>
      obtain ⟨s, present, hmove⟩ := Option.bind_eq_some_iff.1 h
      obtain ⟨⟨deed, shop, s'⟩, hstep, hstepped⟩ := Option.map_eq_some_iff.1 hmove
      cases hstepped
      exact .does present (Session.step_of_goOn hstep)
  | givesUp v =>
      obtain ⟨s, present, hmove⟩ := Option.bind_eq_some_iff.1 h
      obtain ⟨⟨deed, shop, s'⟩, hstep, hstepped⟩ := Option.map_eq_some_iff.1 hmove
      cases hstepped
      exact .does present (Session.step_of_giveUp hstep)
  | leaves v =>
      obtain ⟨s, present, hleaves⟩ := Option.map_eq_some_iff.1 h
      cases hleaves
      exact .leaves present
  | turns o =>
      cases h
      exact .turns

/-- Every event is due to a move. -/
theorem Step.move (step : f.Step e g) : ∃ m, f.move? m = some (e, g) := by
  cases step with
  | @comes v task absent => exact ⟨.comes v task, by rw [move?, absent]⟩
  | @does v s s' deed shop present step =>
      rcases step.moves with h | h
      · exact ⟨.goesOn v, by rw [move?, present, Option.bind_some, h]; rfl⟩
      · exact ⟨.givesUp v, by rw [move?, present, Option.bind_some, h]; rfl⟩
  | @leaves v s present => exact ⟨.leaves v, by rw [move?, present]; rfl⟩
  | @turns o => exact ⟨.turns o, rfl⟩

theorem follow_append (f : Floor ν ρ) (ms more : List (Move ν ρ)) :
    f.follow (ms ++ more) = ((f.follow ms).1 ++ ((f.follow ms).2.follow more).1,
      ((f.follow ms).2.follow more).2) := by
  induction ms generalizing f with
  | nil => rfl
  | cons m ms ih =>
      rw [List.cons_append, follow, follow]
      split
      · rw [ih]
        rfl
      · exact ih f

/-- What happens by a schedule is a run. -/
theorem run_follow (f : Floor ν ρ) (ms : List (Move ν ρ)) :
    f.Run (f.follow ms).1 (f.follow ms).2 := by
  induction ms generalizing f with
  | nil => exact .nil
  | cons m ms ih =>
      rw [follow]
      split
      · next e g hmove => exact .cons (step_of_move hmove) (ih g)
      · exact ih f

theorem Run.follows (run : f.Run events g) : ∃ ms, f.follow ms = (events, g) := by
  induction run with
  | nil => exact ⟨[], rfl⟩
  | @snoc events g h e run step ih =>
      obtain ⟨ms, hms⟩ := ih
      obtain ⟨m, hm⟩ := step.move
      refine ⟨ms ++ [m], ?_⟩
      rw [follow_append, hms]
      simp only [follow, hm]

theorem brings_of_move {m : Move ν ρ} (h : f.move? m = some (e, g)) : m.Brings e := by
  cases m with
  | comes v task =>
      rw [move?] at h
      split at h <;> cases h
      rfl
  | goesOn v =>
      obtain ⟨s, -, hmove⟩ := Option.bind_eq_some_iff.1 h
      obtain ⟨step, -, hstepped⟩ := Option.map_eq_some_iff.1 hmove
      cases hstepped
      exact ⟨_, rfl⟩
  | givesUp v =>
      obtain ⟨s, -, hmove⟩ := Option.bind_eq_some_iff.1 h
      obtain ⟨step, -, hstepped⟩ := Option.map_eq_some_iff.1 hmove
      cases hstepped
      exact ⟨_, rfl⟩
  | leaves v =>
      obtain ⟨s, -, hleaves⟩ := Option.map_eq_some_iff.1 h
      cases hleaves
      rfl
  | turns o =>
      cases h
      rfl

theorem mem_follow {ms : List (Move ν ρ)} (h : e ∈ (f.follow ms).1) :
    ∃ m ∈ ms, m.Brings e := by
  induction ms generalizing f with
  | nil => cases h
  | cons m ms ih =>
      rw [follow] at h
      split at h
      · next e' g hmove =>
          rcases List.mem_cons.1 h with rfl | h
          · exact ⟨m, List.mem_cons_self, brings_of_move hmove⟩
          · obtain ⟨m', hm', brings⟩ := ih h
            exact ⟨m', List.mem_cons_of_mem _ hm', brings⟩
      · obtain ⟨m', hm', brings⟩ := ih h
        exact ⟨m', List.mem_cons_of_mem _ hm', brings⟩

/-- A schedule that does not name somebody leaves him alone. -/
theorem sessions_follow {v : ν} {ms : List (Move ν ρ)} (h : ∀ m ∈ ms, m.name? ≠ some v) :
    (f.follow ms).2.sessions v = f.sessions v := by
  induction ms generalizing f with
  | nil => rfl
  | cons m ms ih =>
      rw [List.forall_mem_cons] at h
      rw [follow]
      split
      · next e g hmove =>
          exact (ih h.2).trans ((step_of_move hmove).sessions_of_ne
            ((brings_of_move hmove).name?.symm ▸ h.1))
      · exact ih h.2

theorem length_follow_le (f : Floor ν ρ) (ms : List (Move ν ρ)) :
    (f.follow ms).1.length ≤ ms.length := by
  induction ms generalizing f with
  | nil => exact Nat.le_refl _
  | cons m ms ih =>
      rw [follow]
      split
      · exact Nat.succ_le_succ (ih _)
      · exact Nat.le_succ_of_le (ih f)

end Floor

/-! ## Sittings -/

/-- Everybody comes at once, they take so many steps in turn, and some of them leave. -/
def sitting {ν ρ : Type} (tasks : List (ν × Task ρ)) (turns : List (ν × Nat)) (leaving : List ν) :
    List (Move ν ρ) :=
  tasks.map (fun t => .comes t.1 t.2) ++
    turns.flatMap (fun turn => List.replicate turn.2 (.goesOn turn.1)) ++ leaving.map .leaves

theorem mem_follow_sitting {ν ρ : Type} [DecidableEq ν] {tasks : List (ν × Task ρ)}
    {turns : List (ν × Nat)} {leaving : List ν} {f : Floor ν ρ} {e : Event ν ρ}
    (h : e ∈ (f.follow (sitting tasks turns leaving)).1) :
    (∃ t ∈ tasks, e = .comes t.1 t.2) ∨ (∃ v deed, e = .does v deed) ∨ ∃ v, e = .leaves v := by
  obtain ⟨m, hm, brings⟩ := Floor.mem_follow h
  rcases List.mem_append.1 hm with hm | hm
  · rcases List.mem_append.1 hm with hm | hm
    · obtain ⟨t, ht, rfl⟩ := List.mem_map.1 hm
      exact .inl ⟨t, ht, brings⟩
    · obtain ⟨turn, -, hturn⟩ := List.mem_flatMap.1 hm
      obtain rfl := List.eq_of_mem_replicate hturn
      exact .inr (.inl ⟨turn.1, brings⟩)
  · obtain ⟨v, -, rfl⟩ := List.mem_map.1 hm
    exact .inr (.inr ⟨v, brings⟩)

/-! ## Visits that take turns -/

/-- All visits come at once, and then take so many steps in turn. -/
def turnsOf (tariff : Tariff) (visits : List Visit) (turns : List (Visit × Nat)) :
    List (Move Visit Outcome) :=
  visits.map (fun v => .comes v (v.errand.task ⟨tariff, .memory⟩)) ++
    turns.flatMap fun turn => List.replicate turn.2 (.goesOn turn.1)

variable {tariff : Tariff} {visits : List Visit} {turns : List (Visit × Nat)}
  {f : Floor Visit Outcome}

/-- Nobody leaves and nothing changes around visits that take turns. -/
theorem mem_follow_turns {e : Event Visit Outcome}
    (h : e ∈ (f.follow (turnsOf tariff visits turns)).1) :
    (∃ v ∈ visits, e = .comes v (v.errand.task ⟨tariff, .memory⟩)) ∨
      ∃ v deed, e = .does v deed := by
  obtain ⟨m, hm, brings⟩ := Floor.mem_follow h
  rcases List.mem_append.1 hm with hm | hm
  · obtain ⟨v, hv, rfl⟩ := List.mem_map.1 hm
    exact .inl ⟨v, hv, brings⟩
  · obtain ⟨turn, -, hturn⟩ := List.mem_flatMap.1 hm
    obtain rfl := List.eq_of_mem_replicate hturn
    exact .inr ⟨turn.1, brings⟩

theorem ordinary_turns {e : Event Visit Outcome}
    (h : e ∈ (f.follow (turnsOf tariff visits turns)).1) : e.Ordinary tariff := by
  rcases mem_follow_turns h with ⟨v, -, rfl⟩ | ⟨v, deed, rfl⟩
  · rfl
  · trivial

theorem drawn_follow_le (f : Floor Visit Outcome) (ms : List (Move Visit Outcome)) (s : Series) :
    drawn (f.follow ms).1 s ≤ ms.length :=
  Nat.le_trans List.countP_le_length (f.length_follow_le ms)

end RentalDesk
