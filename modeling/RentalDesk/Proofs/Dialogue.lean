import RentalDesk.Proofs.Discipline
import RentalDesk.Script.Step

/-!
# Dialogues

A client of the store works on transactions by calls of its own choice: any calls, in any order and
with any arguments, each chosen by the answers so far. After a commit or a rollback it goes on with
a new transaction, and if it says no more its transaction stays open until it is dropped. Besides
clients there are those who register an item.

All of them keep to one discipline. Between making staged rows visible and giving the locks back
nothing else is done, and an item that is registered is written under its lock in an archive, and in
one action in memory.
-/

namespace RentalDesk

open Script Operation

/-- What a client says: the next call, chosen by the answers so far, or nothing more. -/
inductive Dialogue where
  | ends (answer : Script.Answer)
  | calls (move : Script.Move) (next : Script.Answer → Dialogue)

def Dialogue.task : Dialogue → Task Script.Answer
  | .ends answer => .done answer
  | .calls move next => move.task >>= fun answer => (next answer).task

/-- Who comes to the store. -/
inductive Comer where
  | client (dialogue : Dialogue)
  | registrar (item : Item)

def Comer.task (terms : Terms) : Comer → Task Script.Answer
  | .client dialogue => dialogue.task
  | .registrar item => return .flag (← (terms.register item).run)

/-- How far somebody is: at work, with the row that was granted last, or about to give the locks
back. -/
inductive Phase where
  | working (last : Option RowKey)
  | ending

namespace Phase

def after : Phase → Action → Phase
  | _, .release | _, .discard => .working none
  | _, .apply | _, .placeItem _ => .ending
  | phase, _ => phase

def granted (key : RowKey) : Phase → Bool → Phase
  | .working _, true => .working (some key)
  | phase, _ => phase

/-- What may be done in a phase, at a store of the given medium. -/
def Permits (medium : Medium) : Phase → Action → Prop
  | .working last, .placeItem item => medium = .archive ∧ last = some (.item item.id)
  | .working _, .registerItem _ => medium = .memory
  | .working _, _ => True
  | .ending, .release | .ending, .discard => True
  | .ending, _ => False

/-- The discipline of those who come to the store. -/
def discipline (medium : Medium) : Discipline Phase where
  permits phase action := phase.Permits medium action
  answers phase action _ phase' := phase' = phase.after action
  grants phase key granted phase' := phase' = phase.granted key granted

end Phase

/-- The task is followed by somebody at work, and leaves him at work. -/
abbrev Task.Orderly {α : Type} (task : Task α) (medium : Medium) : Prop :=
  ∀ last, task.Follows (Phase.discipline medium) (.working last) fun _ phase =>
    ∃ last, phase = .working last

namespace Operation

variable {medium : Medium} {phase : Phase} {α : Type} {failed : Error → Phase → Prop}

theorem orderly_perform {action : Action} {ok : action.Answer → Phase → Prop}
    (permits : phase.Permits medium action) (h : ∀ answer, ok answer (phase.after action)) :
    (perform action).Follows (Phase.discipline medium) phase ok failed := by
  refine follows_perform.2 ⟨permits, ?_⟩
  rintro answer _ rfl
  exact h answer

theorem orderly_acquire {key : RowKey} {ok : Unit → Phase → Prop}
    (granted : ok () (phase.granted key true))
    (refused : failed (.lockTimeout key) (phase.granted key false)) :
    (acquire key).Follows (Phase.discipline medium) phase ok failed := by
  refine follows_acquire.2 ⟨?_, ?_⟩
  · rintro _ rfl
    exact granted
  · rintro _ rfl
    exact refused

end Operation

/-! ## Everybody keeps to the discipline -/

section

variable {medium : Medium} {α β : Type}

theorem Task.Orderly.bind {task : Task α} {next : α → Task β} (h : task.Orderly medium)
    (hnext : ∀ a, (next a).Orderly medium) : (task >>= next).Orderly medium := by
  intro last
  rw [Task.follows_bind]
  refine (h last).mono ?_
  rintro a _ ⟨last', rfl⟩
  exact hnext a last'

theorem Task.Orderly.pure (a : α) : (Pure.pure a : Task α).Orderly medium :=
  fun last => ⟨last, rfl⟩

/-- The operation is followed by somebody at work, and leaves him at work however it ends. -/
abbrev Operation.Orderly (x : Operation α) (medium : Medium) : Prop :=
  ∀ last, x.Follows (Phase.discipline medium) (.working last)
    (fun _ phase => ∃ last, phase = .working last) fun _ phase => ∃ last, phase = .working last

namespace Operation

theorem Orderly.run {x : Operation α} (h : x.Orderly medium) : Task.Orderly x.run medium :=
  fun last => follows_run.2 (h last)

theorem Orderly.bind {x : Operation α} {f : α → Operation β} (h : x.Orderly medium)
    (hf : ∀ a, (f a).Orderly medium) : (x >>= f).Orderly medium := by
  intro last
  rw [follows_bind]
  refine (h last).mono ?_ fun _ _ hend => hend
  rintro a _ ⟨last', rfl⟩
  exact hf a last'

theorem Orderly.pure (a : α) : (Pure.pure a : Operation α).Orderly medium :=
  fun last => ⟨last, rfl⟩

theorem Orderly.throw (e : Error) : (MonadExcept.throw e : Operation α).Orderly medium :=
  fun last => ⟨last, rfl⟩

theorem Orderly.ofExcept (result : Except Error α) :
    (MonadExcept.ofExcept result : Operation α).Orderly medium := by
  intro last
  rw [follows_ofExcept]
  cases result <;> exact ⟨last, rfl⟩

/-- An action that is permitted at work and leaves everybody at work. -/
theorem Orderly.perform {action : Action}
    (h : ∀ last, (Phase.working last).Permits medium action ∧
      ∃ last', (Phase.working last).after action = .working last') :
    (Operation.perform action).Orderly medium :=
  fun last => orderly_perform (h last).1 fun _ => (h last).2

theorem Orderly.acquire (key : RowKey) : (Operation.acquire key).Orderly medium :=
  fun last => orderly_acquire ⟨some key, rfl⟩ ⟨last, rfl⟩

end Operation

open Operation

/-- A call of a transaction ends where the next one can begin. -/
theorem Script.Move.orderly (move : Script.Move) : move.task.Orderly medium := by
  have answers : ∀ {α : Type} {x : Operation α} (answer : Except Error α → Script.Answer),
      x.Orderly medium → Task.Orderly (x.run >>= fun result => pure (answer result)) medium :=
    fun answer h => h.run.bind fun result => .pure (answer result)
  cases move with
  | lockItem id =>
      exact answers _ (.bind (.acquire _) fun _ => .bind (.perform fun last => ⟨trivial, last, rfl⟩)
        fun _ => .ofExcept _)
  | lockFee id =>
      refine answers _ (.bind (.acquire _) fun _ =>
        .bind (.perform fun last => ⟨trivial, last, rfl⟩) fun _ =>
          .bind (.ofExcept _) fun fee => ?_)
      cases fee with
      | none => exact .pure none
      | some fee =>
          refine .bind (.acquire _) fun _ => .bind (.perform fun last => ⟨trivial, last, rfl⟩)
            fun _ => .bind (.ofExcept _) fun rental => ?_
          cases rental with
          | none => exact .throw _
          | some rental => exact .pure _
  | insertRental rental => exact answers _ (.perform fun last => ⟨trivial, last, rfl⟩)
  | insertFee fee => exact answers _ (.perform fun last => ⟨trivial, last, rfl⟩)
  | insertInvoice invoice => exact answers _ (.perform fun last => ⟨trivial, last, rfl⟩)
  | updateItem item =>
      exact answers _ (.bind (.perform fun last => ⟨trivial, last, rfl⟩) fun _ => .ofExcept _)
  | updateRental rental =>
      exact answers _ (.bind (.perform fun last => ⟨trivial, last, rfl⟩) fun _ => .ofExcept _)
  | updateFee fee =>
      exact answers _ (.bind (.perform fun last => ⟨trivial, last, rfl⟩) fun _ => .ofExcept _)
  | commit =>
      refine answers _ fun last => ?_
      rw [Transaction.commit, follows_bind]
      refine orderly_perform trivial fun _ => orderly_perform trivial fun _ => ⟨none, rfl⟩
  | rollback => exact answers _ (.perform fun _ => ⟨trivial, none, rfl⟩)
  | drop => exact answers _ (.perform fun _ => ⟨trivial, none, rfl⟩)

theorem Dialogue.orderly (dialogue : Dialogue) : dialogue.task.Orderly medium := by
  induction dialogue with
  | ends answer => exact .pure answer
  | calls move next ih => exact move.orderly.bind ih

/-- Memory registers an item in one action, an archive under the lock of the item. -/
theorem Terms.register_orderly (terms : Terms) (item : Item) :
    (terms.register item).Orderly terms.medium := by
  obtain ⟨tariff, medium⟩ := terms
  have guarded : (guard .registerItem).Orderly medium := by
    refine .bind (.perform fun last => ⟨trivial, last, rfl⟩) fun failing => ?_
    cases failing with
    | true => exact .throw _
    | false => exact .pure ()
  refine .bind guarded fun _ => ?_
  cases medium with
  | memory => exact .bind (.perform fun last => ⟨rfl, last, rfl⟩) fun _ => .ofExcept _
  | archive =>
      intro last
      rw [follows_bind]
      refine orderly_acquire ?_ ⟨last, rfl⟩
      have looked : (Operation.look (.item item.id)).run.Follows (Phase.discipline .archive)
          (.working (some (.item item.id)))
          fun _ phase => phase = .working (some (.item item.id)) := by
        rw [follows_run, Operation.look, follows_bind]
        refine orderly_perform trivial fun answer => ?_
        rw [follows_ofExcept]
        cases answer <;> rfl
      rw [follows_bind, follows_lift]
      refine looked.mono ?_
      rintro found _ rfl
      match found with
      | .ok none =>
          rw [follows_bind]
          refine orderly_perform ⟨rfl, rfl⟩ fun _ => ?_
          rw [follows_bind]
          exact orderly_perform trivial fun _ => ⟨none, rfl⟩
      | .ok (some _) =>
          rw [follows_bind]
          exact orderly_perform trivial fun _ => ⟨none, rfl⟩
      | .error e =>
          rw [follows_bind]
          exact orderly_perform trivial fun _ => ⟨none, rfl⟩

/-- Whoever comes to a store keeps to the discipline of its medium. -/
theorem Comer.orderly (comer : Comer) (terms : Terms) :
    (comer.task terms).Orderly terms.medium := by
  cases comer with
  | client dialogue => exact dialogue.orderly
  | registrar item => exact (terms.register_orderly item).run.bind fun _ => .pure _

end

end RentalDesk
