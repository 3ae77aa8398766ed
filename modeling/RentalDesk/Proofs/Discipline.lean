import RentalDesk.Session

/-!
# Disciplines

A discipline says what a task may ask for in each situation, which answers it must be ready for,
and to which situations they lead. A task follows a discipline if it asks for nothing else,
whatever the answers are, and if its end is as required. The rules below take a task apart along
its code, so what is shown of an operation is shown once, wherever the operation is called.
-/

namespace RentalDesk

variable {σ α β : Type}

/-- What tasks may ask for, and what they must be ready for. -/
structure Discipline (σ : Type) where
  permits : σ → Action → Prop
  answers : σ → (action : Action) → action.Answer → σ → Prop
  grants : σ → RowKey → Bool → σ → Prop

namespace Task

/-- The task keeps to the discipline in the situation `s`, and all of its ends are as required. -/
def Follows (d : Discipline σ) : Task α → σ → (α → σ → Prop) → Prop
  | .done a, s, ends => ends a s
  | .act action next, s, ends => d.permits s action ∧
      ∀ answer s', d.answers s action answer s' → (next answer).Follows d s' ends
  | .acquire key next, s, ends =>
      ∀ granted s', d.grants s key granted s' → (next granted).Follows d s' ends

variable {d : Discipline σ}

theorem Follows.mono {t : Task α} {s : σ} {ends ends' : α → σ → Prop} (h : t.Follows d s ends)
    (imp : ∀ a s, ends a s → ends' a s) : t.Follows d s ends' := by
  induction t generalizing s with
  | done a => exact imp a s h
  | act action next ih =>
      exact ⟨h.1, fun answer s' hanswer => ih answer (h.2 answer s' hanswer)⟩
  | acquire key next ih => exact fun granted s' hgranted => ih granted (h granted s' hgranted)

@[simp] theorem follows_pure {a : α} {s : σ} {ends : α → σ → Prop} :
    (pure a : Task α).Follows d s ends ↔ ends a s := Iff.rfl

/-- One task after another: the first one ends where the second one can start. -/
@[simp] theorem follows_bind {t : Task α} {f : α → Task β} {s : σ} {ends : β → σ → Prop} :
    (t >>= f).Follows d s ends ↔ t.Follows d s fun a s' => (f a).Follows d s' ends := by
  change (t.bind f).Follows d s ends ↔ _
  induction t generalizing s with
  | done a => rfl
  | act action next ih =>
      exact and_congr Iff.rfl (forall_congr' fun answer => forall_congr' fun s' =>
        imp_congr_right fun _ => ih answer)
  | acquire key next ih =>
      exact forall_congr' fun granted => forall_congr' fun s' => imp_congr_right fun _ =>
        ih granted

end Task

/-- What remains to be done in a session keeps to the discipline. -/
def Session.Follows (d : Discipline σ) (session : Session α) (s : σ) (ends : α → σ → Prop) : Prop :=
  match session.stage with
  | .running task => task.Follows d s ends
  | .waiting ticket _ next => ∀ granted s', d.grants s ticket.key granted s' →
      (next granted).Follows d s' ends

theorem Session.Follows.ends {d : Discipline σ} {session : Session α} {s : σ}
    {ends : α → σ → Prop} (h : session.Follows d s ends) {a : α}
    (result : session.result? = some a) : ends a s := by
  obtain ⟨writes, stage⟩ := session
  cases stage with
  | waiting ticket deadline next => cases result
  | running task =>
      cases task with
      | done b =>
          obtain rfl := Option.some.inj result
          exact h
      | act action next => cases result
      | acquire key next => cases result

namespace Operation

/-- The operation keeps to the discipline, and ends as required whether it succeeds or fails. -/
def Follows (d : Discipline σ) (x : Operation α) (s : σ) (ok : α → σ → Prop)
    (failed : Error → σ → Prop) : Prop :=
  x.run.Follows d s fun
    | .ok a => ok a
    | .error e => failed e

variable {d : Discipline σ} {s : σ} {ok ok' : α → σ → Prop} {failed failed' : Error → σ → Prop}

theorem Follows.mono {x : Operation α} (h : x.Follows d s ok failed)
    (hok : ∀ a s, ok a s → ok' a s) (hfailed : ∀ e s, failed e s → failed' e s) :
    x.Follows d s ok' failed' := by
  refine Task.Follows.mono h fun result s' hend => ?_
  cases result with
  | ok a => exact hok a s' hend
  | error e => exact hfailed e s' hend

/-- An operation that follows a discipline is a task that does. -/
theorem follows_run {x : Operation α} {ends : Except Error α → σ → Prop} :
    x.run.Follows d s ends ↔ x.Follows d s (fun a => ends (.ok a)) fun e => ends (.error e) := by
  constructor <;> intro h
  · refine h.mono fun result s' hend => ?_
    cases result <;> exact hend
  · refine Task.Follows.mono h fun result s' hend => ?_
    cases result <;> exact hend

@[simp] theorem follows_pure {a : α} : (pure a : Operation α).Follows d s ok failed ↔ ok a s :=
  Iff.rfl

@[simp] theorem follows_throw {e : Error} :
    (throw e : Operation α).Follows d s ok failed ↔ failed e s := Iff.rfl

@[simp] theorem follows_bind {x : Operation α} {f : α → Operation β} {ok : β → σ → Prop} :
    (x >>= f).Follows d s ok failed ↔
      x.Follows d s (fun a s' => (f a).Follows d s' ok failed) failed := by
  have hbind : (x >>= f).run = x.run >>= fun
      | .ok a => (f a).run
      | .error e => pure (.error e) := by
    rw [ExceptT.run_bind]
    congr 1
    funext result
    cases result <;> rfl
  rw [Follows, hbind, Task.follows_bind, Follows]
  constructor <;> intro h
  · refine h.mono fun result s' hend => ?_
    cases result <;> exact hend
  · refine h.mono fun result s' hend => ?_
    cases result <;> exact hend

@[simp] theorem follows_lift {t : Task α} :
    Follows d (ExceptT.lift t) s ok failed ↔ t.Follows d s ok := by
  rw [Follows, ExceptT.run_lift]
  exact Task.follows_bind

@[simp] theorem follows_ofExcept {result : Except Error α} :
    (ofExcept result : Operation α).Follows d s ok failed ↔
      match result with
      | .ok a => ok a s
      | .error e => failed e s := by
  cases result <;> rfl

@[simp] theorem follows_perform {action : Action} {ok : action.Answer → σ → Prop} :
    (perform action).Follows d s ok failed ↔ d.permits s action ∧
      ∀ answer s', d.answers s action answer s' → ok answer s' := by
  rw [perform, follows_lift]
  exact Iff.rfl

theorem follows_acquire {key : RowKey} {ok : Unit → σ → Prop} :
    (acquire key).Follows d s ok failed ↔
      (∀ s', d.grants s key true s' → ok () s') ∧
        ∀ s', d.grants s key false s' → failed (.lockTimeout key) s' := by
  rw [acquire, follows_bind, follows_lift]
  constructor
  · exact fun h => ⟨fun s' hs => h true s' hs, fun s' hs => h false s' hs⟩
  · intro h granted s' hs
    cases granted with
    | true => exact h.1 s' hs
    | false => exact h.2 s' hs

end Operation

end RentalDesk
