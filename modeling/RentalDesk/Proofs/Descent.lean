import RentalDesk.Proofs.Custody.Services

/-!
# Descending requests

The services of the desk ask for rows in descending order of their keys: for a fee, then for its
rental, then for the item. None of them asks for a row twice, and whoever is done has given all rows
back. This takes no notice of what the rows are, so it holds at every store.
-/

namespace RentalDesk

open Operation Script

namespace RowKey

theorem compare_eq_lt {a b : RowKey} :
    compare a b = .lt ↔ a.table < b.table ∨ a.table = b.table ∧ a.id < b.id := by
  change (compareLex (compareOn table) (compareOn id)) a b = .lt ↔ _
  simp only [compareLex, compareOn, Ordering.then_eq_lt, Nat.compare_eq_eq,
    Std.compare_eq_lt]

/-- The place of a key in the order of keys. -/
def rank (key : RowKey) : Nat := key.table * UInt64.size + key.id.toNat

theorem rank_lt {a b : RowKey} (h : compare a b = .lt) : a.rank < b.rank := by
  have hid := a.id.toNat_lt_size
  rw [rank, rank]
  rcases compare_eq_lt.1 h with htable | ⟨htable, hid⟩
  · calc a.table * UInt64.size + a.id.toNat
        < (a.table + 1) * UInt64.size := by rw [Nat.succ_mul]; exact Nat.add_lt_add_left hid _
      _ ≤ b.table * UInt64.size := Nat.mul_le_mul_right _ htable
      _ ≤ b.table * UInt64.size + b.id.toNat := Nat.le_add_right ..
  · rw [htable]
    exact Nat.add_lt_add_left (UInt64.lt_iff_toNat_lt.1 hid) _

end RowKey

/-! ## The discipline -/

/-- The rows that were asked for, the latest first, and whether some of them may be held. -/
structure Descent where
  asked : List RowKey
  holding : Bool

/-- The action gives all rows back. -/
def Action.frees : Action → Bool
  | .release | .discard => true
  | _ => false

namespace Descent

/-- No row was asked for yet. -/
def start : Descent := ⟨[], false⟩

/-- Every row that was asked for is below all those that were asked for before. -/
def Orderly (d : Descent) : Prop :=
  d.asked.Pairwise fun later earlier => compare later earlier = .lt

/-- All rows that were asked for are in order, and none is held any more. -/
def Ended (d : Descent) : Prop := d.Orderly ∧ d.holding = false

def after (d : Descent) (action : Action) : Descent :=
  { d with holding := d.holding && !action.frees }

def discipline : Discipline Descent where
  permits d _ := d.Orderly
  answers d action _ d' := d' = d.after action
  grants d key granted d' := d' = ⟨key :: d.asked, d.holding || granted⟩

/-- Rows of no lower table than this were asked for so far. -/
def Above (d : Descent) (table : Nat) : Prop := d.Orderly ∧ ∀ key ∈ d.asked, table ≤ key.table

theorem Above.mono {d : Descent} {high low : Nat} (h : d.Above high) (hle : low ≤ high) :
    d.Above low := ⟨h.1, fun key hkey => Nat.le_trans hle (h.2 key hkey)⟩

theorem above_start (table : Nat) : start.Above table := ⟨.nil, nofun⟩

theorem Above.ask {d : Descent} (key : RowKey) (h : d.Above (key.table + 1)) (holding : Bool) :
    Above ⟨key :: d.asked, holding⟩ key.table := by
  refine ⟨List.pairwise_cons.2 ⟨fun earlier hearlier => ?_, h.1⟩, ?_⟩
  · exact RowKey.compare_eq_lt.2 (.inl (h.2 earlier hearlier))
  · exact List.forall_mem_cons.2 ⟨Nat.le_refl _, fun earlier hearlier =>
      Nat.le_of_succ_le (h.2 earlier hearlier)⟩

theorem after_of_not_frees {d : Descent} {action : Action} (h : action.frees = false) :
    d.after action = d := by
  rw [after, h, Bool.not_false, Bool.and_true]

end Descent

/-- The requests of the task descend, and in the end it holds nothing. -/
abbrev Task.Descends {α : Type} (task : Task α) (d : Descent) : Prop :=
  task.Follows Descent.discipline d fun _ d' => d'.Ended

/-- Whoever descends has descended so far. -/
theorem Task.Descends.orderly {α : Type} {task : Task α} {d : Descent} (h : task.Descends d) :
    d.Orderly := by
  induction task generalizing d with
  | done a => exact h.1
  | act action next ih => exact h.1
  | acquire key next ih =>
      have asked : (Descent.mk (key :: d.asked) (d.holding || false)).Orderly :=
        ih false (h false _ rfl)
      exact (List.pairwise_cons.1 asked).2

namespace Operation

variable {α β : Type} {d : Descent}

/-! ## Rules -/

/-- An operation that neither asks for rows nor gives them back stays where it is. -/
theorem Only.stays {x : Operation α} {ok : α → Descent → Prop} {failed : Error → Descent → Prop}
    (h : x.Only fun action => !action.frees) (orderly : d.Orderly) (hok : ∀ a, ok a d)
    (hfailed : ∀ e, failed e d) : x.Follows Descent.discipline d ok failed := by
  refine Task.Only.follows h (fun _ _ => orderly) (fun action _ d' keeps hd' => ?_) fun result => ?_
  · exact hd'.trans (Descent.after_of_not_frees (by simpa using keeps))
  · cases result with
    | ok a => exact hok a
    | error e => exact hfailed e

theorem stays_perform {action : Action} {ok : action.Answer → Descent → Prop}
    {failed : Error → Descent → Prop} (keeps : action.frees = false) (orderly : d.Orderly)
    (h : ∀ answer, ok answer d) : (perform action).Follows Descent.discipline d ok failed := by
  refine follows_perform.2 ⟨orderly, ?_⟩
  rintro answer _ rfl
  rw [Descent.after_of_not_frees keeps]
  exact h answer

theorem follows_frees {action : Action} {ok : action.Answer → Descent → Prop}
    {failed : Error → Descent → Prop} (frees : action.frees = true) (orderly : d.Orderly)
    (h : ∀ answer d', d'.Ended → ok answer d') :
    (perform action).Follows Descent.discipline d ok failed := by
  refine follows_perform.2 ⟨orderly, ?_⟩
  rintro answer _ rfl
  exact h answer _ ⟨orderly, by rw [Descent.after, frees, Bool.not_true, Bool.and_false]⟩

/-- The operation asks for rows below the one table, in descending order, and for none below the
other. -/
abbrev Lowers (high low : Nat) (x : Operation α) : Prop :=
  ∀ d : Descent, d.Above high →
    x.Follows Descent.discipline d (fun _ d' => d'.Above low) fun _ d' => d'.Above low

theorem Only.lowers {x : Operation α} {high low : Nat} (h : x.Only fun action => !action.frees)
    (hle : low ≤ high) : x.Lowers high low := fun _ above =>
  h.stays above.1 (fun _ => above.mono hle) fun _ => above.mono hle

theorem Lowers.bind {high mid low : Nat} {x : Operation α} {f : α → Operation β}
    (hx : x.Lowers high mid) (hf : ∀ a, (f a).Lowers mid low) (hle : low ≤ mid) :
    (x >>= f).Lowers high low := fun d above =>
  follows_bind.2 ((hx d above).mono (fun a d' above => hf a d' above) fun _ _ above =>
    above.mono hle)

theorem lowers_acquire (key : RowKey) (table : Nat) (h : key.table = table) :
    (acquire key).Lowers (table + 1) table := by
  subst h
  intro d above
  refine follows_acquire.2 ⟨?_, ?_⟩
  · rintro _ rfl
    exact above.ask key _
  · rintro _ rfl
    exact above.ask key _

theorem lowers_throw {high low : Nat} (hle : low ≤ high) (e : Error) (f : α → Operation β) :
    (MonadExcept.throw e >>= f).Lowers high low := fun _ above =>
  follows_bind.2 (follows_throw.2 (above.mono hle))

/-! ## The calls of the desk -/

theorem stays_guard (call : StoreCall) : (guard call).Only fun action => !action.frees :=
  .guard (fun _ => rfl) call

theorem Lowers.checked {high low : Nat} {call : StoreCall} {x : Operation α}
    (h : x.Lowers high low) (hle : low ≤ high) : (checked call x).Lowers high low :=
  .bind ((stays_guard call).lowers (Nat.le_refl _)) (fun _ => h) hle

theorem lowers_lockItem (id : ItemId) : (lockItem id).Lowers 1 0 := by
  have locked : (Transaction.lockItem id).Lowers 1 0 :=
    .bind (lowers_acquire (.item id) 0 rfl) (fun _ =>
      Only.lowers (.bind (.perform rfl) fun _ => .ofExcept _) (Nat.le_refl _)) (Nat.le_refl _)
  refine .checked (.bind (Only.lowers (.perform rfl) (Nat.le_refl _)) (fun hidden => ?_)
    (Nat.zero_le _)) (Nat.zero_le _)
  exact locked.bind (fun item => Only.lowers (.pure _) (Nat.le_refl _)) (Nat.le_refl _)

/-- The rental is asked for after the fee. -/
theorem lowers_lockFee (id : FeeId) : (Transaction.lockFee id).Lowers 3 1 := by
  refine .bind (lowers_acquire (.fee id) 2 rfl) (fun _ => ?_) (by decide)
  refine .bind (Only.lowers (.perform rfl) (Nat.le_refl _)) (fun answer => ?_) (by decide)
  refine .bind (Only.lowers (.ofExcept _) (Nat.le_refl _)) (fun found => ?_) (by decide)
  cases found with
  | none => exact Only.lowers (.pure _) (by decide)
  | some fee =>
      refine .bind (lowers_acquire (.rental fee.rentalId) 1 rfl) (fun _ => ?_) (Nat.le_refl _)
      refine Only.lowers (.bind (.perform rfl) fun answer => .bind (.ofExcept _) fun rental => ?_)
        (Nat.le_refl _)
      cases rental with
      | none => exact .throw _
      | some rental => exact .pure _

/-- A store call that neither asks for rows nor gives them back. -/
theorem stays_checked {call : StoreCall} {x : Operation α}
    (h : x.Only fun action => !action.frees) :
    (checked call x).Only fun action => !action.frees := .checked (fun _ => rfl) h

theorem lowers_rentBody (terms : Terms) (renter : RenterId) (id : ItemId) :
    (terms.rentBody renter id).Lowers 1 0 := by
  refine .bind (lowers_lockItem id) (fun found => ?_) (Nat.le_refl _)
  cases found with
  | none => exact Only.lowers (.throw _) (Nat.le_refl _)
  | some item =>
      dsimp only
      split
      · refine Only.lowers (.bind (stays_checked (.bind (.perform rfl) fun _ => .ofExcept _))
          fun _ => .bind (.perform rfl) fun now => ?_) (Nat.le_refl _)
        exact .bind (stays_checked (.perform rfl)) fun rental =>
          .bind (stays_checked (.perform rfl)) fun fee => .pure _
      · exact lowers_throw (Nat.le_refl _) _ _

theorem stays_settle (fee : Fee) (renter : RenterId) (now : Instant) :
    (Terms.settle fee renter now).Only fun action => !action.frees :=
  .bind (stays_checked (.perform rfl)) fun _ =>
    .bind (stays_checked (.bind (.perform rfl) fun _ => .ofExcept _)) fun _ => .pure _

theorem lowers_closeRental (terms : Terms) (fee : Fee) (rental : Rental) (now : Instant) :
    (terms.closeRental fee rental now).Lowers 1 0 := by
  refine .bind (lowers_lockItem rental.itemId) (fun found => ?_) (Nat.le_refl _)
  cases found with
  | none => exact Only.lowers (.throw _) (Nat.le_refl _)
  | some item =>
      exact Only.lowers (.bind (.ofExcept _) fun _ =>
        .bind (stays_checked (.bind (.perform rfl) fun _ => .ofExcept _)) fun _ =>
          .bind (stays_checked (.bind (.perform rfl) fun _ => .ofExcept _)) fun _ => .pure _)
        (Nat.le_refl _)

/-- The item is asked for after the rental. -/
theorem lowers_payBody (terms : Terms) (id : FeeId) (renter : RenterId) :
    (terms.payBody id renter).Lowers 3 0 := by
  refine .bind (.checked (lowers_lockFee id) (by decide)) (fun found => ?_) (by decide)
  cases found with
  | none => exact Only.lowers (.throw _) (by decide)
  | some row =>
      obtain ⟨fee, rental⟩ := row
      dsimp only
      split
      · exact lowers_throw (by decide) _ _
      split
      · exact lowers_throw (by decide) _ _
      refine .bind (Only.lowers (.perform rfl) (Nat.le_refl _)) (fun now => ?_) (by decide)
      split
      · refine .bind (lowers_closeRental terms fee rental now) (fun closed => ?_) (Nat.le_refl _)
        exact Only.lowers (.bind (stays_settle _ _ _) fun _ => .pure _) (Nat.le_refl _)
      · exact Only.lowers (.bind (stays_settle _ _ _) fun _ => .pure _) (by decide)

theorem ends_commit (orderly : d.Orderly) :
    commit.Follows Descent.discipline d (fun _ d' => d'.Ended) fun _ d' => d'.Ended := by
  refine follows_bind.2 (stays_perform rfl orderly fun failing => ?_)
  cases failing with
  | true =>
      exact follows_bind.2 (follows_frees rfl orderly fun _ _ ended =>
        follows_bind.2 (follows_throw.2 ended))
  | false =>
      refine follows_bind.2 (stays_perform rfl orderly fun _ => ?_)
      exact follows_frees rfl orderly fun _ _ => id

theorem ends_rollback (orderly : d.Orderly) :
    rollback.run.Follows Descent.discipline d fun _ d' => d'.Ended := by
  refine follows_run.2 (follows_bind.2 (stays_perform rfl orderly fun failing => ?_))
  refine follows_bind.2 (follows_frees rfl orderly fun _ d' ended => ?_)
  cases failing <;> exact ended

/-- The operation starts without any row, and so it ends. -/
abbrev Descends (x : Operation α) : Prop :=
  x.Follows Descent.discipline .start (fun _ d => d.Ended) fun _ d => d.Ended

theorem ended_start : Descent.start.Ended := ⟨.nil, rfl⟩

theorem Only.descends {x : Operation α} (h : x.Only fun action => !action.frees) : x.Descends :=
  h.stays .nil (fun _ => ended_start) fun _ => ended_start

/-- A transaction gives back what its body has locked. -/
theorem descends_transaction {body : Operation α} {high : Nat} (h : body.Lowers high 0) :
    (transaction body).Descends := by
  refine follows_bind.2 ((stays_guard .begin).stays .nil (fun _ => ?_) fun _ => ended_start)
  have above := Descent.above_start high
  refine follows_bind.2 (follows_lift.2 (follows_run.2 ((h _ above).mono ?_ ?_)))
  · intro a d above
    refine follows_bind.2 ((ends_commit above.1).mono ?_ fun _ _ => id)
    exact fun _ _ ended => follows_pure.2 ended
  · intro e d above
    refine follows_bind.2 (follows_lift.2 ((ends_rollback above.1).mono ?_))
    exact fun _ _ ended => follows_throw.2 ended

end Operation

/-! ## The services -/

/-- A quiet operation gives nothing back. -/
theorem Operation.stays_of_quiet {α : Type} {x : Operation α} (h : x.Only Action.passes) :
    x.Only fun action => !action.frees :=
  Task.Only.mono h fun action passes => by cases action <;> first | rfl | cases passes

theorem Operation.stays_isKnown (id : ItemId) : (isKnown id).Only fun action => !action.frees := by
  refine .bind (.lift (stays_checked (.look rfl))) fun found => ?_
  cases found <;> exact .pure _

namespace Terms

variable (terms : Terms)

theorem descends_rent (renter : RenterId) (id : ItemId) : (terms.rent renter id).Descends := by
  rw [Terms.rent]
  split
  · exact follows_bind.2 (follows_throw.2 ended_start)
  split
  · exact follows_bind.2 (follows_throw.2 ended_start)
  refine follows_bind.2 ((stays_isKnown id).stays .nil (fun known => ?_) fun _ => ended_start)
  cases known with
  | false => exact follows_bind.2 (follows_throw.2 ended_start)
  | true => exact descends_transaction (lowers_rentBody terms renter id)

theorem descends_pay (id : FeeId) (renter : RenterId) : (terms.pay id renter).Descends := by
  rw [Terms.pay]
  split
  · exact follows_bind.2 (follows_throw.2 ended_start)
  refine follows_bind.2 ((descends_transaction (lowers_payBody terms id renter)).mono ?_
    fun _ _ ended => ended)
  intro settlement d ended
  cases settlement.returnedItem with
  | none => exact follows_pure.2 ended
  | some item => exact follows_bind.2 (stays_perform rfl ended.1 fun _ => follows_pure.2 ended)

/-- An archive asks for the item alone. -/
theorem descends_register (item : Item) : (terms.register item).Descends := by
  refine follows_bind.2 ((stays_guard .registerItem).stays .nil (fun _ => ?_) fun _ => ended_start)
  cases terms.medium with
  | memory => exact Only.descends (.bind (.perform rfl) fun _ => .ofExcept _)
  | archive =>
      have asked := (Descent.above_start 1).ask (.item item.id)
      refine follows_bind.2 (follows_acquire.2 ⟨?_, ?_⟩)
      · rintro _ rfl
        have orderly := (asked true).1
        refine follows_bind.2 (follows_lift.2 (follows_run.2
          (Only.stays (.look rfl) orderly (fun found => ?_) fun e => ?_)))
        · cases found with
          | none =>
              exact follows_bind.2 (stays_perform rfl orderly fun _ =>
                follows_bind.2 (follows_frees rfl orderly fun _ _ ended => follows_pure.2 ended))
          | some row =>
              exact follows_bind.2 (follows_frees rfl orderly fun _ _ ended => follows_pure.2 ended)
        · exact follows_bind.2 (follows_frees rfl orderly fun _ _ ended => follows_throw.2 ended)
      · rintro _ rfl
        exact ⟨(asked false).1, rfl⟩

end Terms

theorem Operation.Descends.answered {α β : Type} {x : Operation α} (h : x.Descends)
    (answer : Except Error α → β) :
    Task.Descends (x.run >>= fun result => pure (answer result)) .start :=
  Task.follows_bind.2 (follows_run.2 (h.mono (fun _ _ ended => ended) fun _ _ ended => ended))

theorem Operation.descends_quiet {α : Type} {x : Operation α} (h : x.Only Action.passes) :
    x.Descends := Only.descends (stays_of_quiet h)

theorem Terms.descends_answer (terms : Terms) (command : Command) :
    (terms.answer command).Descends .start := by
  cases command with
  | rent item renter => exact (terms.descends_rent renter item).answered _
  | pay fee renter => exact (terms.descends_pay fee renter).answered _
  | listFees renter => exact (descends_quiet (quiet_listFees terms renter)).answered _
  | listRentals renter => exact (descends_quiet (quiet_listRentals renter)).answered _
  | listInvoices renter => exact (descends_quiet (quiet_listInvoices renter)).answered _
  | listFilms => exact (descends_quiet quiet_listItems).answered _

theorem Terms.descends_answerLine (terms : Terms) (line : List Char) :
    (terms.answerLine line).Descends .start := by
  rw [Terms.answerLine]
  split
  · exact terms.descends_answer _
  · exact ended_start

/-- Whatever the desk does for somebody, it asks for rows in descending order, and gives all of them
back in the end. -/
theorem Service.descends (service : Service) (terms : Terms) :
    (service.task terms).Descends .start := by
  cases service with
  | register item => exact (terms.descends_register item).answered _
  | call request =>
      cases request with
      | rent renter item => exact (terms.descends_rent renter item).answered _
      | pay fee renter => exact (terms.descends_pay fee renter).answered _
      | send line =>
          exact Task.follows_bind.2 ((terms.descends_answerLine line.toList).mono
            fun _ _ ended => ended)
  | query look =>
      cases look with
      | listFees renter => exact (descends_quiet (quiet_listFees terms renter)).answered _
      | listRentals renter => exact (descends_quiet (quiet_listRentals renter)).answered _
      | listInvoices renter => exact (descends_quiet (quiet_listInvoices renter)).answered _
      | listItems => exact (descends_quiet quiet_listItems).answered _
      | storedFees renter => exact (descends_quiet (quiet_feesOfRenter terms renter)).answered _
      | storedRentals renter => exact (descends_quiet (quiet_rentalsOfRenter renter)).answered _
      | storedInvoices renter => exact (descends_quiet (quiet_invoicesOfRenter renter)).answered _
      | item id => exact (Only.descends (stays_checked (.look rfl))).answered _
      | known id => exact (Only.descends (stays_isKnown id)).answered _

end RentalDesk
