import RentalDesk.Operations.Listings
import RentalDesk.Proofs.Discipline

/-!
# Quiet tasks

A task is quiet if it asks for no rows, and for no actions but harmless ones. Where the harmless
actions leave a situation as it is, so does the whole task. All listings are quiet.
-/

namespace RentalDesk

variable {α β σ : Type} {good better : Action → Bool}

/-- The task asks for no rows, and for no other actions. -/
def Task.Only (good : Action → Bool) : Task α → Prop
  | .done _ => True
  | .act action next => good action = true ∧ ∀ answer, (next answer).Only good
  | .acquire _ _ => False

namespace Task

theorem Only.mono {t : Task α} (h : t.Only good)
    (imp : ∀ action, good action = true → better action = true) : t.Only better := by
  induction t with
  | done a => trivial
  | act action next ih => exact ⟨imp _ h.1, fun answer => ih answer (h.2 answer)⟩
  | acquire key next ih => exact h

theorem Only.bind {t : Task α} {f : α → Task β} (h : t.Only good) (hf : ∀ a, (f a).Only good) :
    (t >>= f).Only good := by
  change (t.bind f).Only good
  induction t with
  | done a => exact hf a
  | act action next ih => exact ⟨h.1, fun answer => ih answer (h.2 answer)⟩
  | acquire key next ih => exact h

/-- A task whose actions leave a situation as it is leaves it as it is. -/
theorem Only.follows {d : Discipline σ} {s : σ} {t : Task α} {ends : α → σ → Prop}
    (h : t.Only good) (permits : ∀ action, good action = true → d.permits s action)
    (same : ∀ action answer s', good action = true → d.answers s action answer s' → s' = s)
    (hends : ∀ a, ends a s) : t.Follows d s ends := by
  induction t with
  | done a => exact hends a
  | act action next ih =>
      refine ⟨permits _ h.1, fun answer s' hanswer => ?_⟩
      rw [same _ _ _ h.1 hanswer]
      exact ih answer (h.2 answer)
  | acquire key next ih => exact h.elim

end Task

namespace Operation

/-- The operation asks for no rows, and for no other actions. -/
abbrev Only (good : Action → Bool) (x : Operation α) : Prop := Task.Only good x.run

theorem Only.bind {x : Operation α} {f : α → Operation β} (h : x.Only good)
    (hf : ∀ a, (f a).Only good) : (x >>= f).Only good := by
  rw [Only, ExceptT.run_bind]
  refine Task.Only.bind h fun result => ?_
  cases result with
  | ok a => exact hf a
  | error e => trivial

theorem Only.pure (a : α) : (Pure.pure a : Operation α).Only good := trivial

theorem Only.throw (e : Error) : (MonadExcept.throw e : Operation α).Only good := trivial

theorem Only.ofExcept (result : Except Error α) :
    (MonadExcept.ofExcept result : Operation α).Only good := by
  cases result <;> trivial

theorem Only.perform {action : Action} (h : good action = true) :
    (Operation.perform action).Only good := ⟨h, fun _ => trivial⟩

theorem Only.look {what : Look} (h : good (.look what) = true) :
    (Operation.look what).Only good := .bind (.perform h) fun answer => .ofExcept answer

theorem Only.lift {t : Task α} (h : t.Only good) : Only good (ExceptT.lift t : Operation α) := by
  rw [Only, ExceptT.run_lift]
  exact Task.Only.bind h fun _ => trivial

variable (asks : ∀ call, good (.fails call) = true)
include asks

theorem Only.guard (call : StoreCall) : (guard call).Only good := by
  refine .bind (.perform (asks call)) fun failing => ?_
  cases failing with
  | true => exact .throw _
  | false => exact .pure ()

theorem Only.checked {call : StoreCall} {x : Operation α} (h : x.Only good) :
    (checked call x).Only good := .bind (.guard asks call) fun _ => h

end Operation

/-! ## Listings -/

/-- The action neither looks at single rows nor does anything to the shop. -/
def Action.passes : Action → Bool
  | .fails _ | .now => true
  | .look (.item _) => false
  | .look _ => true
  | _ => false

namespace Operation

theorem quiet_allItems : allItems.Only Action.passes := .checked (fun _ => rfl) (.look rfl)

theorem quiet_listItems : listItems.Only Action.passes := .bind quiet_allItems fun _ => .pure _

theorem quiet_rentalsOfRenter (renter : RenterId) :
    (rentalsOfRenter renter).Only Action.passes :=
  .checked (fun _ => rfl) (.bind (.look rfl) fun _ => .pure _)

theorem quiet_invoicesOfRenter (renter : RenterId) :
    (invoicesOfRenter renter).Only Action.passes :=
  .checked (fun _ => rfl) (.bind (.look rfl) fun _ => .pure _)

theorem quiet_listRentals (renter : RenterId) : (listRentals renter).Only Action.passes := by
  rw [listRentals]
  split
  · exact .pure _
  · exact .bind quiet_allItems fun _ => .bind (quiet_rentalsOfRenter renter) fun _ => .pure _

theorem quiet_listInvoices (renter : RenterId) : (listInvoices renter).Only Action.passes := by
  rw [listInvoices]
  split
  · exact .pure _
  · exact .bind (quiet_invoicesOfRenter renter) fun _ => .pure _

theorem quiet_feesOfRenter (terms : Terms) (renter : RenterId) :
    (terms.feesOfRenter renter).Only Action.passes := by
  refine .checked (fun _ => rfl) ?_
  cases terms.medium with
  | memory => exact .bind (.look rfl) fun _ => .pure _
  | archive => exact .bind (.look rfl) fun _ => .bind (.look rfl) fun _ => .pure _

theorem quiet_listFees (terms : Terms) (renter : RenterId) :
    (terms.listFees renter).Only Action.passes := by
  rw [Terms.listFees]
  split
  · exact .pure _
  · exact .bind (quiet_feesOfRenter terms renter) fun _ => .bind (.perform rfl) fun _ =>
      .bind (.ofExcept _) fun _ => .pure _

end Operation

end RentalDesk
