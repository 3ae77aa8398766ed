import RentalDesk.Proofs.Floor

/-!
# The hall

A store in memory has one lock for all of its tables, which is shared by those who read and
exclusive for those who write. An action at the tables is done inside this lock, which is entered
before and left with the action; an archive has no such lock. In the hall entering is a step of its
own, so that others can take steps of theirs while somebody is inside. Without the steps of
entering, a run of the hall is a run of its floor, and every run of the floor is one of the hall.
-/

namespace RentalDesk

/-- How the lock of the tables is held. -/
inductive Access where
  | shared
  | exclusive
deriving DecidableEq

/-- Whether the lock can be held in both ways at the same time. -/
def Access.admits : Access → Access → Bool
  | .shared, .shared => true
  | _, _ => false

theorem Access.admits_comm (a b : Access) : a.admits b = b.admits a := by
  cases a <;> cases b <;> rfl

/-- How an action holds the lock of the tables. A row that is staged is read without them. -/
def Action.access? (writes : WriteSet) : Medium → Action → Option Access
  | .archive, _ => none
  | .memory, .look _ | .memory, .updateFee _ => some .shared
  | .memory, .readItem id => if writes.staged.items.contains id then none else some .shared
  | .memory, .readRental id => if writes.staged.rentals.contains id then none else some .shared
  | .memory, .readFee id => if writes.staged.fees.contains id then none else some .shared
  | .memory, .apply | .memory, .registerItem _ | .memory, .placeItem _ => some .exclusive
  | .memory, _ => none

/-- How a session has to hold the lock of the tables for its next step. -/
def Session.access? {ρ : Type} (medium : Medium) (s : Session ρ) : Option Access :=
  match s.stage with
  | .running (.act action _) => action.access? s.writes medium
  | _ => none

/-- A floor, and who holds the lock of its tables. -/
structure Hall (ν ρ : Type) where
  floor : Floor ν ρ
  inside : ν → Option Access

/-- What happens in the hall. -/
inductive Passage (ν ρ : Type) where
  | enters (name : ν)
  | occurs (event : Event ν ρ)

/-- The events on the floor. -/
def Passage.events {ν ρ : Type} (passages : List (Passage ν ρ)) : List (Event ν ρ) :=
  passages.filterMap fun
    | .enters _ => none
    | .occurs e => some e

namespace Hall

variable {ν ρ : Type}

/-- The hall of a floor when nobody is inside. -/
def ofFloor (f : Floor ν ρ) : Hall ν ρ := ⟨f, fun _ => none⟩

variable [DecidableEq ν]

/-- One step in the hall. Whoever acts at the tables is inside, and leaves with the action. -/
inductive Step (medium : Medium) : Hall ν ρ → Passage ν ρ → Hall ν ρ → Prop
  | enters {h : Hall ν ρ} {v : ν} {s : Session ρ} {access : Access}
      (present : h.floor.sessions v = some s) (needs : s.access? medium = some access)
      (outside : h.inside v = none)
      (admitted : ∀ w other, h.inside w = some other → access.admits other = true) :
      Step medium h (.enters v) ⟨h.floor, Function.update h.inside v (some access)⟩
  | occurs {h : Hall ν ρ} {e : Event ν ρ} {g : Floor ν ρ} (step : h.floor.Step e g)
      (inside : ∀ v deed s, e = .does v deed → h.floor.sessions v = some s →
        h.inside v = s.access? medium) :
      Step medium h (.occurs e) ⟨g, fun v => if e.name? = some v then none else h.inside v⟩

/-- The steps of a run, oldest first, and the hall that they lead to. -/
inductive Run (medium : Medium) (h : Hall ν ρ) : List (Passage ν ρ) → Hall ν ρ → Prop
  | nil : Run medium h [] h
  | snoc {passages : List (Passage ν ρ)} {i j : Hall ν ρ} {p : Passage ν ρ}
      (run : Run medium h passages i) (step : Step medium i p j) :
      Run medium h (passages ++ [p]) j

variable {medium : Medium} {h i : Hall ν ρ} {passages : List (Passage ν ρ)} {p : Passage ν ρ}

/-! ## The floor of the hall -/

omit [DecidableEq ν] in
theorem events_append (passages more : List (Passage ν ρ)) :
    Passage.events (passages ++ more) = Passage.events passages ++ Passage.events more :=
  List.filterMap_append

/-- Without the steps of entering, a run of the hall is a run of its floor. -/
theorem Run.floor (run : h.Run medium passages i) :
    h.floor.Run (Passage.events passages) i.floor := by
  induction run with
  | nil => exact .nil
  | snoc _ step ih =>
      rw [events_append]
      cases step with
      | enters => exact (List.append_nil _).symm ▸ ih
      | occurs step => exact ih.snoc step

theorem Run.append {j : Hall ν ρ} {more : List (Passage ν ρ)} (run : h.Run medium passages i)
    (rest : i.Run medium more j) : h.Run medium (passages ++ more) j := by
  induction rest with
  | nil => rwa [List.append_nil]
  | snoc _ step ih =>
      rw [← List.append_assoc]
      exact ih.snoc step

/-- When nobody is inside, anybody can enter. -/
theorem enters_ofFloor {f : Floor ν ρ} {v : ν} {s : Session ρ} {access : Access}
    (present : f.sessions v = some s) (needs : s.access? medium = some access) :
    (ofFloor f).Step medium (.enters v) ⟨f, Function.update (fun _ => none) v (some access)⟩ :=
  .enters present needs rfl nofun

/-- An event on the floor, after which those inside are as given. -/
theorem Step.of_floor {e : Event ν ρ} {g : Floor ν ρ} {inside : ν → Option Access}
    (step : h.floor.Step e g)
    (acts : ∀ v deed s, e = .does v deed → h.floor.sessions v = some s →
      h.inside v = s.access? medium)
    (leaves : ∀ v, inside v = if e.name? = some v then none else h.inside v) :
    h.Step medium (.occurs e) ⟨g, inside⟩ := by
  obtain rfl := funext leaves
  exact .occurs step acts

/-- Whatever happens on the floor can happen in the hall, if whoever acts at the tables enters just
before. -/
theorem run_of_step (medium : Medium) {f g : Floor ν ρ} {e : Event ν ρ} (step : f.Step e g) :
    ∃ passages, Passage.events passages = [e] ∧
      (ofFloor f).Run medium passages (ofFloor g) := by
  by_cases acts : ∃ v deed s access, e = .does v deed ∧ f.sessions v = some s ∧
      s.access? medium = some access
  · obtain ⟨v, deed, s, access, rfl, present, needs⟩ := acts
    have entered : (ofFloor f).Run medium [.enters v] _ :=
      Run.nil.snoc (enters_ofFloor present needs)
    refine ⟨[.enters v, .occurs (.does v deed)], rfl,
      entered.snoc (.of_floor step ?_ fun w => ?_)⟩
    · intro w other u heq hw
      obtain ⟨rfl, -⟩ := Event.does.inj heq
      obtain rfl := Option.some.inj (present.symm.trans hw)
      exact (Function.update_self v (some access) fun _ => none).trans needs.symm
    · by_cases hw : w = v
      · subst hw
        exact (if_pos rfl).symm
      · split
        · rfl
        · exact (Function.update_of_ne hw (some access) fun _ => none).symm
  · refine ⟨[.occurs e], rfl, Run.nil.snoc (.of_floor step ?_ fun w => (ite_self none).symm)⟩
    intro v deed s heq present
    cases needs : s.access? medium with
    | none => rfl
    | some access => exact absurd ⟨v, deed, s, access, heq, present, needs⟩ acts

/-- Every run of a floor is one of its hall. -/
theorem run_of_floor (medium : Medium) {f g : Floor ν ρ} {events : List (Event ν ρ)}
    (run : f.Run events g) : ∃ passages, Passage.events passages = events ∧
      (ofFloor f).Run medium passages (ofFloor g) := by
  induction run with
  | nil => exact ⟨[], rfl, .nil⟩
  | snoc _ step ih =>
      obtain ⟨passages, rfl, before⟩ := ih
      obtain ⟨more, hmore, rest⟩ := run_of_step medium step
      exact ⟨passages ++ more, by rw [events_append, hmore], before.append rest⟩

/-! ## Who is inside -/

/-- Whoever is inside is about to act at the tables, and nobody writes them beside others. -/
structure Kept (medium : Medium) (h : Hall ν ρ) : Prop where
  acts : ∀ v access, h.inside v = some access →
    ∃ s, h.floor.sessions v = some s ∧ s.access? medium = some access
  apart : ∀ v w access other, v ≠ w → h.inside v = some access → h.inside w = some other →
    access.admits other = true

omit [DecidableEq ν] in
theorem kept_ofFloor (f : Floor ν ρ) : (ofFloor f).Kept medium := ⟨nofun, nofun⟩

theorem Kept.step (kept : h.Kept medium) (step : h.Step medium p i) : i.Kept medium := by
  cases step with
  | @enters v s access present needs outside admitted =>
      have now : ∀ {w other}, Function.update h.inside v (some access) w = some other →
          w = v ∧ other = access ∨ h.inside w = some other := by
        intro w other hw
        rw [Function.update_apply] at hw
        split at hw
        · next heq => exact .inl ⟨heq, (Option.some.inj hw).symm⟩
        · exact .inr hw
      constructor
      · intro w other hw
        rcases now hw with ⟨rfl, rfl⟩ | hw
        · exact ⟨s, present, needs⟩
        · exact kept.acts w other hw
      · intro w u other third hne hw hu
        rcases now hw with ⟨rfl, rfl⟩ | hw' <;> rcases now hu with ⟨rfl, rfl⟩ | hu'
        · exact absurd rfl hne
        · exact admitted u third hu'
        · rw [Access.admits_comm]
          exact admitted w other hw'
        · exact kept.apart w u other third hne hw' hu'
  | @occurs e g step _ =>
      have before : ∀ {w access}, (if e.name? = some w then none else h.inside w) = some access →
          e.name? ≠ some w ∧ h.inside w = some access := by
        intro w access hw
        split at hw
        · cases hw
        · next hname => exact ⟨hname, hw⟩
      constructor
      · intro w access hw
        obtain ⟨hname, hw⟩ := before hw
        obtain ⟨s, present, needs⟩ := kept.acts w access hw
        exact ⟨s, (step.sessions_of_ne hname).trans present, needs⟩
      · intro w u access other hne hw hu
        exact kept.apart w u access other hne (before hw).2 (before hu).2

theorem Run.kept (run : h.Run medium passages i) (kept : h.Kept medium) : i.Kept medium := by
  induction run with
  | nil => exact kept
  | snoc _ step ih => exact ih.step step

end Hall

end RentalDesk
