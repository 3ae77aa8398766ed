import RentalDesk.Proofs.Conduct.Basic

/-!
# The conduct of store calls

What a visit may count on after each of its store calls. A call that fails refuses the errand with
an error that is explained: by the call, by the row that was refused, or by the verdict on the rows
that were read. A transaction turns a body that is prepared to commit into a promise that is kept.
-/

namespace RentalDesk

namespace Standing

variable (s : Standing) (tariff : Tariff) (errand : Errand)

/-- The errand is refused with an error that is explained. -/
structure Refused (e : Error) : Prop where
  promise : s.promise = none
  explains : s.Explains tariff errand (errand.failed e)

/-- Nothing was drawn, locked or staged yet. -/
structure Idle : Prop where
  writes : s.writes = .empty
  known : s.known = []
  drawn : s.diary.drawn = []
  promise : s.promise = none

@[simp] def read (t : Tables) (key : RowKey) : Standing :=
  { s with known := s.learn t key, seen := t :: s.seen }

/-- The standing after committed rows were looked at. -/
@[simp] def see (t : Tables) : Standing := { s with seen := t :: s.seen }

/-- The standing after a row was staged. -/
@[simp] def stage (staged : Tables) : Standing := { s with writes := s.writes.withStaged staged }

/-- The standing after the clock was read. -/
@[simp] def atTime (now : Instant) : Standing := { s with diary := { s.diary with now } }

/-- The standing after a deed that changes the writes. -/
@[simp] def drew (writes : WriteSet) (deed : Deed) : Standing :=
  { s with writes, diary := s.diary.note deed }

/-- The standing after everything was given back. -/
@[simp] def release : Standing := { s with writes := .empty, known := [] }

variable {s tariff errand}

theorem Refused.of_hindrance {e : Error} (h : s.promise = none) (he : e.isHindrance = true) :
    s.hinder.Refused tariff errand e :=
  ⟨h, .inr ⟨rfl, e, he, rfl⟩⟩

theorem Refused.of_verdict {e : Error} (h : s.promise = none) {t : Tables} (ht : t ∈ s.seen)
    (hv : (s.circumstances tariff).verdict t errand = (none, errand.failed e)) :
    s.Refused tariff errand e :=
  ⟨h, .inl ⟨t, ht, hv⟩⟩

theorem Explains.hinder {o : Outcome} (h : s.Explains tariff errand o) :
    s.hinder.Explains tariff errand o :=
  h.imp_right fun h => ⟨rfl, h.2⟩

theorem Refused.hinder {e : Error} (h : s.Refused tariff errand e) :
    s.hinder.Refused tariff errand e :=
  ⟨h.promise, h.explains.hinder⟩

theorem Refused.release {e : Error} (h : s.Refused tariff errand e) :
    s.release.Refused tariff errand e :=
  ⟨h.promise, h.explains⟩

/-- A visit whose errand was refused may end if it has nothing to give back. -/
theorem Refused.ends {e : Error} (h : s.Refused tariff errand e) (writes : s.writes = .empty) :
    s.Ends tariff errand (errand.failed e) where
  writes := writes
  promised p hp := by
    rw [h.promise] at hp
    cases hp
  unpromised _ := h.explains

theorem Ends.of_promise {o : Outcome} (writes : s.writes = .empty) (h : s.promise = some o) :
    s.Ends tariff errand o where
  writes := writes
  promised p hp := Option.some.inj (h.symm.trans hp)
  unpromised hnone := by
    rw [h] at hnone
    cases hnone

theorem Idle.hinder (h : s.Idle) : s.hinder.Idle := ⟨h.writes, h.known, h.drawn, h.promise⟩

theorem Idle.see (h : s.Idle) (t : Tables) : (s.see t).Idle :=
  ⟨h.writes, h.known, h.drawn, h.promise⟩

end Standing

namespace Operation

variable {α : Type}

/-- The operation keeps to the conduct of an errand, and refuses the errand if it fails. -/
abbrev Conducts (tariff : Tariff) (errand : Errand) (x : Operation α) (s : Standing)
    (ok : α → Standing → Prop) : Prop :=
  x.Follows (errand.conduct tariff) s ok fun e s' => s'.Refused tariff errand e

variable {tariff : Tariff} {errand : Errand} {s : Standing} {ok : α → Standing → Prop}
  {failed : Error → Standing → Prop}

/-- An action leads on with its answer if it may be asked for. -/
theorem follows_action (action : Action) {ok : action.Answer → Standing → Prop}
    (permits : s.Permits tariff errand action)
    (answers : ∀ shop t, shop.store = .memory t → s.Fits t → .hideItem ∉ shop.failing →
      ok (shop.perform s.writes action).1 (s.after tariff errand shop t action)) :
    (perform action).Follows (errand.conduct tariff) s ok failed := by
  refine follows_perform.2 ⟨permits, ?_⟩
  rintro _ _ ⟨shop, t, hstore, hfits, hhide, rfl, rfl⟩
  exact answers shop t hstore hfits hhide

theorem follows_fails {call : StoreCall} {ok : Bool → Standing → Prop} (passed : ok false s)
    (stopped : call ≠ .hideItem → ok true s.hinder) :
    (fails call).Follows (errand.conduct tariff) s ok failed := by
  refine follows_action (.fails call) trivial fun shop t _ _ hhide => ?_
  have hafter : s.after tariff errand shop t (.fails call) =
      bif shop.failing.contains call then s.hinder else s := by
    rw [Standing.after, Shop.perform]
    cases shop.failing.contains call <;> rfl
  rw [hafter]
  change ok (shop.failing.contains call) _
  cases hcall : shop.failing.contains call with
  | false => exact passed
  | true => exact stopped fun h => hhide (by simpa [h] using hcall)

theorem follows_guard {call : StoreCall} {ok : Unit → Standing → Prop} (passed : ok () s)
    (stopped : failed (.storage (.injected call)) s.hinder) :
    (guard call).Follows (errand.conduct tariff) s ok failed :=
  follows_bind.2 (follows_fails passed fun _ => follows_throw.2 stopped)

theorem follows_look {id : ItemId} {ok : Option Item → Standing → Prop}
    (seen : ∀ t, s.Fits t → ok (t.items.get? id) (s.see t)) :
    (look (.item id)).Follows (errand.conduct tariff) s ok failed := by
  refine follows_bind.2 (follows_action (.look (.item id)) trivial ?_)
  intro shop t hstore hfits _
  have hlook : shop.look (.item id) = .ok (t.items.get? id) := by
    rw [Shop.look, hstore, Store.item?]
  change (ofExcept (shop.look (.item id)) : Operation _).Follows _ (s.see t) ok failed
  rw [hlook]
  exact follows_ofExcept.2 (seen t hfits)

theorem follows_now {ok : Instant → Standing → Prop} (told : ∀ now, ok now (s.atTime now)) :
    (perform .now).Follows (errand.conduct tariff) s ok failed :=
  follows_action .now trivial fun shop _ _ _ _ => told shop.clock

theorem follows_readItem {id : ItemId} {ok : Except Error (Option Item) → Standing → Prop}
    (unstaged : s.writes.staged.items.get? id = none)
    (read : ∀ t, s.Fits t → ok (.ok (t.items.get? id)) (s.read t (.item id))) :
    (perform (.readItem id)).Follows (errand.conduct tariff) s ok failed := by
  refine follows_action (.readItem id) trivial fun shop t hstore hfits _ => ?_
  have hrow : (shop.perform s.writes (.readItem id)).1 = .ok (t.items.get? id) := by
    simp only [Shop.perform, unstaged, Shop.overlay, hstore, Store.item?]
  rw [hrow]
  exact read t hfits

theorem follows_readRental {id : RentalId} {ok : Except Error (Option Rental) → Standing → Prop}
    (unstaged : s.writes.staged.rentals.get? id = none)
    (read : ∀ t, s.Fits t → ok (.ok (t.rentals.get? id)) (s.read t (.rental id))) :
    (perform (.readRental id)).Follows (errand.conduct tariff) s ok failed := by
  refine follows_action (.readRental id) trivial fun shop t hstore hfits _ => ?_
  have hrow : (shop.perform s.writes (.readRental id)).1 = .ok (t.rentals.get? id) := by
    simp only [Shop.perform, unstaged, Shop.overlay, hstore, Store.rental?]
  rw [hrow]
  exact read t hfits

theorem follows_readFee {id : FeeId} {ok : Except Error (Option Fee) → Standing → Prop}
    (unstaged : s.writes.staged.fees.get? id = none)
    (read : ∀ t, s.Fits t → ok (.ok (t.fees.get? id)) (s.read t (.fee id))) :
    (perform (.readFee id)).Follows (errand.conduct tariff) s ok failed := by
  refine follows_action (.readFee id) trivial fun shop t hstore hfits _ => ?_
  have hrow : (shop.perform s.writes (.readFee id)).1 = .ok (t.fees.get? id) := by
    simp only [Shop.perform, unstaged, Shop.overlay, hstore, Store.fee?]
  rw [hrow]
  exact read t hfits

/-! ## Calls in the body of a transaction -/

theorem conducts_checked {call : StoreCall} {x : Operation α} (h : s.promise = none)
    (hx : x.Conducts tariff errand s ok) : (checked call x).Conducts tariff errand s ok :=
  follows_bind.2 (follows_guard hx (.of_hindrance h rfl))

theorem conducts_acquire {key : RowKey} {ok : Unit → Standing → Prop} (h : s.promise = none)
    (free : s.writes.holds key = false)
    (granted : ∀ ticket, ticket.key = key → ok () (s.hold ticket)) :
    (acquire key).Conducts tariff errand s ok := by
  refine follows_acquire.2 ⟨?_, ?_⟩
  · rintro _ (⟨holds, rfl⟩ | ⟨ticket, hkey, rfl⟩)
    · rw [free] at holds
      cases holds
    · exact granted ticket hkey
  · rintro _ rfl
    exact .of_hindrance h rfl

theorem conducts_insertRental {row : NewRental} {ok : Rental → Standing → Prop}
    (h : s.promise = none) (undrawn : .rentals ∉ s.diary.drawn)
    (drawn : ∀ id, ok (row.withId id) (s.drew (s.writes.insertRental (row.withId id))
      (.did (.insertRental row) (row.withId id)))) :
    (Transaction.insertRental row).Conducts tariff errand s ok :=
  follows_action (.insertRental row) ⟨h, undrawn⟩ fun shop _ _ _ _ =>
    drawn shop.sequences.rentals.next

theorem conducts_insertFee {row : NewFee} {ok : Fee → Standing → Prop}
    (h : s.promise = none) (undrawn : .fees ∉ s.diary.drawn)
    (drawn : ∀ id, ok (row.withId id) (s.drew (s.writes.insertFee (row.withId id))
      (.did (.insertFee row) (row.withId id)))) :
    (Transaction.insertFee row).Conducts tariff errand s ok :=
  follows_action (.insertFee row) ⟨h, undrawn⟩ fun shop _ _ _ _ =>
    drawn shop.sequences.fees.next

theorem conducts_insertInvoice {row : NewInvoice} {ok : Invoice → Standing → Prop}
    (h : s.promise = none) (undrawn : .invoices ∉ s.diary.drawn)
    (drawn : ∀ id, ok (row.withId id) (s.drew (s.writes.insertInvoice (row.withId id))
      (.did (.insertInvoice row) (row.withId id)))) :
    (Transaction.insertInvoice row).Conducts tariff errand s ok :=
  follows_action (.insertInvoice row) ⟨h, undrawn⟩ fun shop _ _ _ _ =>
    drawn shop.sequences.invoices.next

theorem conducts_updateItem {item : Item} {ok : Unit → Standing → Prop}
    (holds : s.writes.holds (.item item.id) = true)
    (staged : ok () (s.stage (s.writes.staged.putItem item))) :
    (Transaction.updateItem item).Conducts tariff errand s ok := by
  refine follows_bind.2 (follows_action (.updateItem item) trivial ?_)
  intro shop t _ _ _
  have hstaged : shop.perform s.writes (.updateItem item) =
      (.ok (), shop, s.writes.withStaged (s.writes.staged.putItem item)) := by
    rw [Shop.perform, WriteSet.stageItem_eq, if_pos holds, Shop.staged]
  rw [Standing.after, hstaged]
  exact staged

theorem conducts_updateRental {rental : Rental} {ok : Unit → Standing → Prop}
    (holds : s.writes.holds (.rental rental.id) = true)
    (staged : ok () (s.stage (s.writes.staged.putRental rental))) :
    (Transaction.updateRental rental).Conducts tariff errand s ok := by
  refine follows_bind.2 (follows_action (.updateRental rental) trivial ?_)
  intro shop t _ _ _
  have hstaged : shop.perform s.writes (.updateRental rental) =
      (.ok (), shop, s.writes.withStaged (s.writes.staged.putRental rental)) := by
    rw [Shop.perform, WriteSet.stageRental_eq, if_pos holds, Shop.staged]
  rw [Standing.after, hstaged]
  exact staged

/-- The fee that is staged must not change the settlement of the fee that is committed. -/
theorem conducts_updateFee {fee : Fee} {ok : Unit → Standing → Prop}
    (holds : s.writes.holds (.fee fee.id) = true)
    (unstaged : s.writes.staged.fees.get? fee.id = none)
    (keeps : ∀ t, s.Fits t →
      (t.fees.get? fee.id).any (WriteSet.altersSettlement · fee) = false)
    (staged : ok () (s.stage (s.writes.staged.putFee fee))) :
    (Transaction.updateFee fee).Conducts tariff errand s ok := by
  refine follows_bind.2 (follows_action (.updateFee fee) trivial ?_)
  intro shop t hstore hfits _
  have hstaged : shop.perform s.writes (.updateFee fee) =
      (.ok (), shop, s.writes.withStaged (s.writes.staged.putFee fee)) := by
    rw [Shop.perform, hstore, Store.fee?]
    change shop.staged s.writes (s.writes.stageFee fee (t.fees.get? fee.id)) = _
    rw [WriteSet.stageFee_eq, if_pos holds, unstaged, Option.none_or, keeps t hfits]
    rfl
  rw [Standing.after, hstaged]
  exact staged

/-- An item is read after it was locked. -/
theorem conducts_lockItem {id : ItemId} {ok : Option Item → Standing → Prop}
    (h : s.promise = none) (free : s.writes.holds (.item id) = false)
    (unstaged : s.writes.staged.items.get? id = none)
    (locked : ∀ ticket t, ticket.key = .item id → s.Fits t →
      ok (t.items.get? id) ((s.hold ticket).read t (.item id))) :
    (lockItem id).Conducts tariff errand s ok := by
  refine conducts_checked h (follows_bind.2 (follows_fails ?_ fun hhide => absurd rfl hhide))
  refine follows_bind.2 (follows_bind.2 (conducts_acquire h free fun ticket hkey => ?_))
  refine follows_bind.2 (follows_readItem unstaged fun t hfits => ?_)
  exact follows_ofExcept.2 (locked ticket t hkey ⟨hfits.keyed, hfits.known⟩)

/-! ## Transactions -/

theorem follows_release {ok : Unit → Standing → Prop} (h : ok () s.release) :
    (perform .release).Follows (errand.conduct tariff) s ok failed :=
  follows_action .release trivial fun _ _ _ _ _ => h

theorem follows_commit {o : Outcome} (h : s.Prepared tariff errand o) :
    commit.Follows (errand.conduct tariff) s
      (fun _ s' => s'.writes = .empty ∧ s'.promise = some o)
      fun e s' => s'.Ends tariff errand (errand.failed e) := by
  refine follows_bind.2 (follows_fails ?_ fun _ => ?_)
  · refine follows_bind.2 (follows_action .apply ⟨o, h⟩ fun shop t _ hfits _ => ?_)
    refine follows_release ⟨rfl, ?_⟩
    change some ((s.circumstances tariff).verdict t errand).2 = some o
    rw [h.verdict t hfits]
  · refine follows_bind.2 (follows_release (follows_throw.2 ?_))
    have hrefused : s.hinder.Refused tariff errand (.storage (.injected .commit)) :=
      .of_hindrance h.promise rfl
    exact hrefused.release.ends rfl

/-- A rollback gives everything back even if it fails. -/
theorem follows_rollback {e : Error} (h : s.Refused tariff errand e) :
    rollback.run.Follows (errand.conduct tariff) s fun _ s' =>
      s'.writes = .empty ∧ s'.Refused tariff errand e := by
  refine follows_run.2 (follows_bind.2 (follows_fails ?_ fun _ => ?_))
  · exact follows_bind.2 (follows_release ⟨rfl, h.release⟩)
  · exact follows_bind.2 (follows_release ⟨rfl, h.hinder.release⟩)

/-- A body that is prepared to commit makes a promise, and one that fails has the errand refused.
In either case nothing is held and nothing staged afterwards. -/
theorem follows_transaction {body : Operation α} {outcome : α → Outcome}
    (writes : s.writes = .empty) (promise : s.promise = none)
    (hbody : body.Conducts tariff errand s fun a s' => s'.Prepared tariff errand (outcome a)) :
    (transaction body).Follows (errand.conduct tariff) s
      (fun a s' => s'.writes = .empty ∧ s'.promise = some (outcome a))
      fun e s' => s'.Ends tariff errand (errand.failed e) := by
  refine follows_bind.2 (follows_guard ?_ ?_)
  · refine follows_bind.2 (follows_lift.2 (follows_run.2 (hbody.mono ?_ ?_)))
    · intro a s' prepared
      exact follows_bind.2 (follows_commit prepared)
    · intro e s' hrefused
      refine follows_bind.2 (follows_lift.2 ((follows_rollback hrefused).mono ?_))
      rintro _ s'' ⟨hwrites, hrefused⟩
      exact hrefused.ends hwrites
  · have hrefused : s.hinder.Refused tariff errand (.storage (.injected .begin)) :=
      .of_hindrance promise rfl
    exact hrefused.ends writes

end Operation

end RentalDesk
