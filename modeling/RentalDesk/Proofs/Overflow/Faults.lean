import RentalDesk.Proofs.Custody.Services
import RentalDesk.Proofs.Overflow.Charges

/-!
# Where faults of storage come from

Somebody is in trouble if a store call is made to fail, if the store refuses what he asks for or
does not find the row, or if he gives up waiting for a row. `attending` is the discipline of those
who are shown fees of moderate amounts and add no others. Whoever follows it ends with no overflow,
and if there was no trouble he ends with no fault of storage at all, but at most with a decision of
the desk. So whatever is answered as a fault of storage is due to trouble.
-/

namespace RentalDesk

open Operation Script

/-- A fee from which no more accrues, or which is of a moderate amount. -/
def Fee.Moderate (fee : Fee) : Prop := fee.isSettled = false → fee.amount.Moderate

theorem Fee.Moderate.of_settled {fee : Fee} (h : fee.isSettled = true) : fee.Moderate :=
  fun unsettled => absurd (h.symm.trans unsettled) nofun

/-! ## Trouble -/

namespace Action

/-- The fees that an answer shows. -/
def shown : (action : Action) → action.Answer → List Fee
  | .readFee _, .ok (some fee) => [fee]
  | .look .fees, .ok fees => fees
  | .look .ledger, .ok ledger => ledger.1
  | _, _ => []

/-- The error that the store answers with. -/
def error? : (action : Action) → action.Answer → Option Error
  | .look _, .error e | .readItem _, .error e | .readRental _, .error e | .readFee _, .error e
  | .updateItem _, .error e | .updateRental _, .error e | .updateFee _, .error e
  | .registerItem _, .error e => some e
  | _, _ => none

/-- The call was made to fail, or a row was not found. -/
def fruitless : (action : Action) → action.Answer → Bool
  | .fails _, failing => failing
  | .readItem _, .ok none | .readRental _, .ok none => true
  | _, _ => false

/-- Whether the call was refused by the store, or was fruitless. -/
def troubled (action : Action) (answer : action.Answer) : Bool :=
  (action.error? answer).isSome || action.fruitless answer

/-- No fee is written from which more than a moderate amount accrues. -/
def Moderate : Action → Prop
  | .insertFee fee => fee.amount.Moderate
  | .updateFee fee => fee.Moderate
  | _ => True

/-- The answer shows moderate fees and is no overflow, and it is no trouble if all goes smoothly. -/
structure Attended (smooth : Prop) (action : Action) (answer : action.Answer) : Prop where
  shown : ∀ fee ∈ action.shown answer, fee.Moderate
  refused : ∀ e, action.error? answer = some e → e.kind ≠ .amountOverflow
  untroubled : smooth → action.troubled answer = false

end Action

/-- Whether the step is a trouble: an action that was answered so, or a wait that was given up. -/
def Deed.troubled : Deed → Bool
  | .did action answer => action.troubled answer
  | .passed _ | .asked _ | .took _ => false
  | .gaveUp _ => true

/-- Where an error may come from: it is no overflow, and if all goes smoothly it is a decision,
where there is anything to decide. -/
structure Error.Arises (smooth decides : Prop) (e : Error) : Prop where
  other : e.kind ≠ .amountOverflow
  smooth : smooth → decides ∧ e.isStorageFault = false

-- All rules hold whether all goes smoothly or not, so this can be settled after a run.
variable {smooth decides : Prop} {α β : Type}

/-- An error in trouble may be any but an overflow. -/
theorem Error.Arises.of_trouble {e : Error} (other : e.kind ≠ .amountOverflow)
    (trouble : ¬ smooth) : e.Arises smooth decides :=
  ⟨other, fun h => absurd h trouble⟩

theorem Error.Arises.of_decision {e : Error} (h : e.isStorageFault = false) :
    e.Arises smooth True where
  other overflow := by
    rw [isStorageFault, overflow] at h
    cases h
  smooth _ := ⟨trivial, h⟩

theorem Action.Attended.arises {action : Action} {answer : action.Answer}
    (h : action.Attended smooth answer) {e : Error} (refused : action.error? answer = some e) :
    e.Arises smooth decides := by
  refine .of_trouble (h.refused e refused) fun hsmooth => ?_
  have untroubled := h.untroubled hsmooth
  rw [troubled, refused, Option.isSome_some, Bool.true_or] at untroubled
  cases untroubled

/-- The discipline of those who are shown moderate fees, and write no others. If all goes smoothly
they meet no trouble, and are granted all rows that they ask for. -/
def attending (smooth : Prop) : Discipline Unit where
  permits _ action := action.Moderate
  answers _ action answer _ := action.Attended smooth answer
  grants _ _ granted _ := smooth → granted = true

namespace Operation

/-- The operation ends as required, or with an error that may arise. -/
abbrev Fares (smooth decides : Prop) (x : Operation α) (ok : α → Prop) : Prop :=
  x.Follows (attending smooth) () (fun a _ => ok a) fun e _ => e.Arises smooth decides

variable {x : Operation α} {P Q : α → Prop}

theorem Fares.mono (h : x.Fares smooth decides P) (imp : ∀ a, P a → Q a) :
    x.Fares smooth decides Q :=
  Follows.mono h (fun a _ => imp a) fun _ _ => id

theorem Fares.bind {f : α → Operation β} {Q : β → Prop} (h : x.Fares smooth decides P)
    (hf : ∀ a, P a → (f a).Fares smooth decides Q) : (x >>= f).Fares smooth decides Q :=
  follows_bind.2 (Follows.mono h (fun a _ => hf a) fun _ _ => id)

theorem Fares.pure {a : α} (h : P a) : (Pure.pure a : Operation α).Fares smooth decides P := h

theorem Fares.throw {e : Error} (h : e.Arises smooth decides) :
    (MonadExcept.throw e : Operation α).Fares smooth decides P := h

/-- The desk refuses what it was asked for. -/
theorem Fares.refuse {e : Error} (h : e.isStorageFault = false) :
    (MonadExcept.throw e : Operation α).Fares smooth True P :=
  .throw (.of_decision h)

/-- What follows on a refusal is not done. -/
theorem Fares.refuse_bind {e : Error} {f : α → Operation β} {P : β → Prop}
    (h : e.isStorageFault = false) :
    ((MonadExcept.throw e : Operation α) >>= f).Fares smooth True P :=
  .bind (.refuse (P := fun _ => False) h) nofun

/-- What goes on whether it is done or refused. -/
theorem Fares.tried {d : Prop} {f : Except Error α → Operation β} {Q : β → Prop}
    (h : x.Fares smooth d P) (done : ∀ a, P a → (f (.ok a)).Fares smooth decides Q)
    (refused : ∀ e, e.Arises smooth d → (f (.error e)).Fares smooth decides Q) :
    Fares smooth decides (ExceptT.lift x.run >>= f) Q :=
  follows_bind.2 (follows_lift.2 (follows_run.2
    (Follows.mono h (fun a _ => done a) fun e _ => refused e)))

/-! ## Calls -/

theorem fares_perform (action : Action) (moderate : action.Moderate) :
    (perform action).Fares smooth decides (action.Attended smooth) :=
  follows_perform.2 ⟨moderate, fun _ _ => id⟩

/-- What the store answers, unless it refuses. -/
theorem fares_answer {action : Action} {answer : action.Answer} {result : Except Error α}
    (attended : action.Attended smooth answer)
    (refused : ∀ e, result = .error e → action.error? answer = some e)
    (h : ∀ a, result = .ok a → P a) : (ofExcept result : Operation α).Fares smooth decides P := by
  rw [Fares, follows_ofExcept]
  cases result with
  | ok a => exact h a rfl
  | error e => exact attended.arises (refused e rfl)

theorem fares_look (what : Look) : (look what).Fares smooth decides fun a =>
    ∀ fee ∈ Action.shown (.look what) (.ok a), fee.Moderate := by
  refine .bind (fares_perform (.look what) trivial) fun answer attended => ?_
  refine fares_answer attended (fun _ h => h ▸ rfl) ?_
  rintro a rfl
  exact attended.shown

theorem fares_fails (call : StoreCall) :
    (fails call).Fares smooth decides fun failing => smooth → failing = false :=
  (fares_perform (.fails call) trivial).mono fun _ attended => attended.untroubled

/-- A call that is made to fail does so in trouble. -/
theorem arises_injected {failing : Bool} (trouble : smooth → failing = false)
    (failed : failing = true) (call : StoreCall) :
    (Error.storage (.injected call)).Arises smooth decides :=
  .of_trouble nofun fun h => absurd (failed.symm.trans (trouble h)) nofun

theorem fares_guard (call : StoreCall) : (guard call).Fares smooth decides fun _ => True := by
  refine .bind (fares_fails call) fun failing trouble => ?_
  cases failing with
  | true => exact .throw (arises_injected trouble rfl call)
  | false => exact .pure trivial

theorem fares_checked {call : StoreCall} (h : x.Fares smooth decides P) :
    (checked call x).Fares smooth decides P :=
  .bind (fares_guard call) fun _ _ => h

theorem fares_acquire (key : RowKey) : (acquire key).Fares smooth decides fun _ => True := by
  refine follows_acquire.2 ⟨fun _ _ => trivial, fun _ refused => ?_⟩
  exact .of_trouble nofun fun h => absurd (refused h) nofun

/-- A row is written, unless this is refused. -/
theorem fares_updateItem (item : Item) :
    (Transaction.updateItem item).Fares smooth decides fun _ => True :=
  .bind (fares_perform (.updateItem item) trivial) fun _ attended =>
    fares_answer attended (fun _ h => h ▸ rfl) fun _ _ => trivial

theorem fares_updateRental (rental : Rental) :
    (Transaction.updateRental rental).Fares smooth decides fun _ => True :=
  .bind (fares_perform (.updateRental rental) trivial) fun _ attended =>
    fares_answer attended (fun _ h => h ▸ rfl) fun _ _ => trivial

theorem fares_updateFee {fee : Fee} (moderate : fee.Moderate) :
    (Transaction.updateFee fee).Fares smooth decides fun _ => True :=
  .bind (fares_perform (.updateFee fee) moderate) fun _ attended =>
    fares_answer attended (fun _ h => h ▸ rfl) fun _ _ => trivial

/-- If all goes smoothly, the item is there. -/
theorem fares_lockItem (id : ItemId) :
    (lockItem id).Fares smooth decides fun item => smooth → item ≠ none := by
  have read : (Transaction.lockItem id).Fares smooth decides fun item => smooth → item ≠ none := by
    refine .bind (fares_acquire _) fun _ _ => ?_
    refine .bind (fares_perform (.readItem id) trivial) fun answer attended => ?_
    refine fares_answer attended (fun _ h => h ▸ rfl) ?_
    rintro item rfl hsmooth rfl
    cases attended.untroubled hsmooth
  refine fares_checked (.bind (fares_fails .hideItem) fun hidden shows => ?_)
  refine .bind read fun item found => .pure fun hsmooth => ?_
  rw [shows hsmooth, if_neg Bool.false_ne_true]
  exact found hsmooth

/-- The fee that is locked is moderate. -/
theorem fares_lockFee (id : FeeId) : (Transaction.lockFee id).Fares smooth decides
    fun found => ∀ fee rental, found = some (fee, rental) → fee.Moderate := by
  refine .bind (fares_acquire _) fun _ _ => ?_
  refine .bind (fares_perform (.readFee id) trivial) fun answer attended => ?_
  refine .bind (P := fun found => ∀ fee, found = some fee → fee.Moderate)
    (fares_answer attended (fun _ h => h ▸ rfl) ?_) ?_
  · rintro _ rfl fee rfl
    exact attended.shown fee List.mem_cons_self
  rintro (- | fee) moderate
  · exact .pure fun _ _ same => nomatch same
  refine .bind (fares_acquire _) fun _ _ => ?_
  refine .bind (fares_perform (.readRental _) trivial) fun answer attended => ?_
  refine .bind (P := fun rental => smooth → rental ≠ none)
    (fares_answer attended (fun _ h => h ▸ rfl) ?_) ?_
  · rintro rental rfl hsmooth rfl
    cases attended.untroubled hsmooth
  rintro (- | rental) found
  · exact .throw (.of_trouble nofun fun hsmooth => found hsmooth rfl)
  · refine .pure fun _ _ same => ?_
    obtain ⟨rfl, rfl⟩ := Prod.mk.inj (Option.some.inj same)
    exact moderate _ rfl

/-! ## Transactions -/

theorem fares_commit : commit.Fares smooth decides fun _ => True := by
  refine .bind (fares_fails .commit) fun failing trouble => ?_
  cases failing with
  | true =>
      refine .bind (fares_perform .release trivial) fun _ _ => ?_
      exact .throw (arises_injected trouble rfl _)
  | false =>
      refine .bind (fares_perform .apply trivial) fun _ _ => ?_
      exact (fares_perform .release trivial).mono fun _ _ => trivial

theorem fares_rollback : rollback.Fares smooth decides fun _ => True := by
  refine .bind (fares_fails .rollback) fun failing trouble => ?_
  refine .bind (fares_perform .release trivial) fun _ _ => ?_
  cases failing with
  | true => exact .throw (arises_injected trouble rfl _)
  | false => exact .pure trivial

theorem fares_transaction (h : x.Fares smooth decides P) :
    (transaction x).Fares smooth decides P := by
  have back : rollback.Fares smooth decides fun _ => True := fares_rollback
  refine .bind (fares_guard .begin) fun _ _ => h.tried (fun a ends => ?_) fun e arises => ?_
  · exact .bind fares_commit fun _ _ => .pure ends
  · exact back.tried (fun _ _ => .throw arises) fun _ _ => .throw arises

/-! ## Requests -/

variable {terms : Terms}

theorem fares_isKnown (id : ItemId) : (isKnown id).Fares smooth decides fun _ => True := by
  have looked : (checked .item (look (.item id))).Fares smooth decides fun _ => True :=
    fares_checked ((fares_look (.item id)).mono fun _ _ => trivial)
  exact looked.tried (fun _ _ => .pure trivial) fun _ _ => .pure trivial

theorem fares_rentBody (base : terms.tariff.baseFee.Moderate) (renter : RenterId) (id : ItemId) :
    (terms.rentBody renter id).Fares smooth True fun _ => True := by
  refine .bind (fares_lockItem id) ?_
  rintro (- | item) -
  · exact .refuse rfl
  dsimp only
  split
  · refine .bind (fares_checked (fares_updateItem _)) fun _ _ => ?_
    refine .bind (fares_perform .now trivial) fun now _ => ?_
    refine .bind (fares_checked (fares_perform (.insertRental _) trivial)) fun rental _ => ?_
    exact .bind (fares_checked (fares_perform (.insertFee _) base)) fun fee _ => .pure trivial
  · exact .refuse_bind rfl

theorem fares_rent (base : terms.tariff.baseFee.Moderate) (renter : RenterId) (id : ItemId) :
    (terms.rent renter id).Fares smooth True fun _ => True := by
  rw [Terms.rent]
  split
  · exact .refuse_bind rfl
  split
  · exact .refuse_bind rfl
  refine .bind (fares_isKnown id) fun known _ => ?_
  cases known with
  | false => exact .refuse_bind rfl
  | true => exact fares_transaction (fares_rentBody base renter id)

theorem fares_closeRental (prices : terms.tariff.Moderate) {fee : Fee}
    (moderate : fee.amount.Moderate) (rental : Rental) (now : Instant) :
    (terms.closeRental fee rental now).Fares smooth decides fun _ => True := by
  refine .bind (fares_lockItem _) ?_
  rintro (- | item) found
  · exact .throw (.of_trouble nofun fun hsmooth => found hsmooth rfl)
  obtain ⟨amount, charged⟩ := prices.exists_accrued moderate rental.rentedAt now
  dsimp only
  rw [charged]
  refine .bind (P := fun _ => True) (.pure trivial) fun amount _ => ?_
  refine .bind (fares_checked (fares_updateRental _)) fun _ _ => ?_
  exact .bind (fares_checked (fares_updateItem _)) fun _ _ => .pure trivial

theorem fares_settle (fee : Fee) (renter : RenterId) (now : Instant) :
    (Terms.settle fee renter now).Fares smooth decides fun _ => True := by
  refine .bind (fares_checked (fares_perform (.insertInvoice _) trivial)) fun invoice _ => ?_
  exact .bind (fares_checked (fares_updateFee (.of_settled rfl))) fun _ _ => .pure trivial

theorem fares_payBody (prices : terms.tariff.Moderate) (id : FeeId) (renter : RenterId) :
    (terms.payBody id renter).Fares smooth True fun _ => True := by
  refine .bind (fares_checked (fares_lockFee id)) ?_
  rintro (- | ⟨fee, rental⟩) moderate
  · exact .refuse rfl
  dsimp only
  split
  · exact .refuse_bind rfl
  next unsettled =>
  split
  · exact .refuse_bind rfl
  refine .bind (fares_perform .now trivial) fun now _ => ?_
  split
  · have amount := moderate fee rental rfl (Bool.eq_false_iff.2 unsettled)
    refine .bind (fares_closeRental prices amount rental now) fun closed _ => ?_
    exact .bind (fares_settle _ _ _) fun _ _ => .pure trivial
  · exact .bind (fares_settle _ _ _) fun _ _ => .pure trivial

theorem fares_pay (prices : terms.tariff.Moderate) (id : FeeId) (renter : RenterId) :
    (terms.pay id renter).Fares smooth True fun _ => True := by
  rw [Terms.pay]
  split
  · exact .refuse_bind rfl
  refine .bind (fares_transaction (fares_payBody prices id renter)) fun settlement _ => ?_
  cases settlement.returnedItem with
  | none => exact .pure trivial
  | some item => exact .bind (fares_perform (.announce item) trivial) fun _ _ => .pure trivial

theorem fares_register (item : Item) :
    (terms.register item).Fares smooth decides fun _ => True := by
  refine fares_checked ?_
  split
  · refine .bind (fares_perform (.registerItem item) trivial) fun answer attended => ?_
    exact fares_answer attended (fun _ h => h ▸ rfl) fun _ _ => trivial
  have looked : (look (.item item.id)).Fares smooth decides fun _ => True :=
    (fares_look _).mono fun _ _ => trivial
  refine .bind (fares_acquire _) fun _ _ => looked.tried (fun found _ => ?_) fun e arises => ?_
  · cases found with
    | none =>
        refine .bind (fares_perform (.placeItem item) trivial) fun _ _ => ?_
        exact .bind (fares_perform .discard trivial) fun _ _ => .pure trivial
    | some row => exact .bind (fares_perform .discard trivial) fun _ _ => .pure trivial
  · exact .bind (fares_perform .discard trivial) fun _ _ => .throw arises

/-! ## Listings -/

theorem fares_allItems : allItems.Fares smooth decides fun _ => True :=
  fares_checked ((fares_look .items).mono fun _ _ => trivial)

theorem fares_listItems : listItems.Fares smooth decides fun _ => True :=
  .bind fares_allItems fun _ _ => .pure trivial

theorem fares_rentalsOfRenter (renter : RenterId) :
    (rentalsOfRenter renter).Fares smooth decides fun _ => True :=
  fares_checked (.bind (fares_look .rentals) fun _ _ => .pure trivial)

theorem fares_listRentals (renter : RenterId) :
    (listRentals renter).Fares smooth decides fun _ => True := by
  rw [listRentals]
  split
  · exact .pure trivial
  · refine .bind fares_allItems fun _ _ => ?_
    exact .bind (fares_rentalsOfRenter renter) fun _ _ => .pure trivial

theorem fares_invoicesOfRenter (renter : RenterId) :
    (invoicesOfRenter renter).Fares smooth decides fun _ => True :=
  fares_checked (.bind (fares_look .invoices) fun _ _ => .pure trivial)

theorem fares_listInvoices (renter : RenterId) :
    (listInvoices renter).Fares smooth decides fun _ => True := by
  rw [listInvoices]
  split
  · exact .pure trivial
  · exact .bind (fares_invoicesOfRenter renter) fun _ _ => .pure trivial

theorem mem_of_mem_feesOf {rentals : List Rental} {fees : List Fee} {row : Fee × Rental}
    (h : row ∈ feesOf rentals fees) : row.1 ∈ fees := by
  obtain ⟨fee, hfee, hrow⟩ := List.mem_filterMap.1 h
  obtain ⟨rental, -, rfl⟩ := Option.map_eq_some_iff.1 hrow
  exact hfee

theorem fares_feesOfRenter (renter : RenterId) : (terms.feesOfRenter renter).Fares smooth decides
    fun rows => ∀ row ∈ rows, row.1.Moderate := by
  refine fares_checked ?_
  split
  · exact .bind (fares_look .ledger) fun ledger moderate => .pure fun row hrow =>
      moderate _ (mem_of_mem_feesOf hrow)
  · refine .bind (fares_look .rentals) fun rentals _ => ?_
    exact .bind (fares_look .fees) fun fees moderate => .pure fun row hrow =>
      moderate _ (mem_of_mem_feesOf hrow)

/-- At moderate prices every moderate fee can be shown. -/
theorem exists_feeView (prices : terms.tariff.Moderate) {fee : Fee} (moderate : fee.Moderate)
    (now : Instant) (rental : Rental) : ∃ view, terms.tariff.feeView now fee rental = .ok view := by
  rw [Tariff.feeView]
  split
  · next live =>
      obtain ⟨amount, charged⟩ :=
        prices.exists_accrued (moderate (Bool.eq_false_iff.2 live.2)) rental.rentedAt now
      rw [charged]
      exact ⟨_, rfl⟩
  · exact ⟨_, rfl⟩

theorem exists_mapM_eq_ok {f : α → Except Error β} {l : List α}
    (h : ∀ a ∈ l, ∃ b, f a = .ok b) : ∃ bs, l.mapM f = .ok bs := by
  induction l with
  | nil => exact ⟨[], rfl⟩
  | cons a l ih =>
      rw [List.forall_mem_cons] at h
      obtain ⟨⟨b, hb⟩, rest⟩ := h
      obtain ⟨bs, hbs⟩ := ih rest
      refine ⟨b :: bs, ?_⟩
      rw [List.mapM_cons, hb, hbs]
      rfl

theorem fares_listFees (prices : terms.tariff.Moderate) (renter : RenterId) :
    (terms.listFees renter).Fares smooth decides fun _ => True := by
  rw [Terms.listFees]
  split
  · exact .pure trivial
  refine .bind (fares_feesOfRenter renter) fun rows moderate => ?_
  refine .bind (fares_perform .now trivial) fun now _ => ?_
  obtain ⟨views, hviews⟩ := exists_mapM_eq_ok (l := rows) fun row hrow =>
    exists_feeView prices (moderate row hrow) now row.2
  dsimp only
  rw [hviews]
  exact .bind (P := fun _ => True) (.pure trivial) fun _ _ => .pure trivial

end Operation

/-! ## Answers -/

/-- Whether the reply reports a fault of storage. -/
def Reply.isFault : Reply → Bool
  | .rent .storageError _ | .pay .storageError _ | .listFailed => true
  | _ => false

namespace Script.Answer

/-- The error that is answered. -/
def error? : Answer → Option Error
  | .rented (.error e) | .settled (.error e) | .feeViews (.error e) | .rentalViews (.error e)
  | .items (.error e) | .rentals (.error e) | .invoices (.error e) | .fees (.error e)
  | .item (.error e) | .fee (.error e) | .newRental (.error e) | .newFee (.error e)
  | .newInvoice (.error e) | .flag (.error e) | .count (.error e) | .finished (.error e)
  | .outputs (.error e) => some e
  | _ => none

/-- Whether the answer reports a fault of storage. -/
def isFault : Answer → Bool
  | .reply r => r.isFault
  | answer => answer.error?.any Error.isStorageFault

/-- Where an answer may come from: it is no overflow, and no fault of storage if all goes
smoothly. -/
structure Arises (smooth : Prop) (answer : Answer) : Prop where
  other : ∀ e, answer.error? = some e → e.kind ≠ .amountOverflow
  smooth : smooth → answer.isFault = false

end Script.Answer

theorem Reply.isFault_ofRented (e : Error) :
    (Reply.ofRented (.error e)).isFault = e.isStorageFault := by
  rw [ofRented, RentStatus.ofError]
  cases e.isStorageFault <;> rfl

theorem Reply.isFault_ofSettlement (e : Error) :
    (Reply.ofSettlement (.error e)).isFault = e.isStorageFault := by
  rw [ofSettlement, PayStatus.ofError.eq_def]
  split
  · rfl
  · cases e.isStorageFault <;> rfl

namespace Operation

variable {x : Operation α} {P : α → Prop} {terms : Terms}

/-- An operation whose outcome is the answer. -/
theorem Fares.answers {answer : Except Error α → Answer} (h : x.Fares smooth True P)
    (ok : ∀ a, (answer (.ok a)).error? = none ∧ (answer (.ok a)).isFault = false)
    (error : ∀ e, (answer (.error e)).error? = some e ∧
      (answer (.error e)).isFault = e.isStorageFault) :
    (return answer (← x.run) : Task Answer).Follows (attending smooth) () fun a _ =>
      a.Arises smooth := by
  refine Task.follows_bind.2 (follows_run.2 (Follows.mono h (fun a _ _ => ?_) fun e _ arises => ?_))
  · exact ⟨fun e he => (nomatch (ok a).1.symm.trans he), fun _ => (ok a).2⟩
  · refine ⟨fun e' he => ?_, fun hsmooth => ?_⟩
    · rw [(error e).1] at he
      exact Option.some.inj he ▸ arises.other
    · rw [(error e).2]
      exact (arises.smooth hsmooth).2

/-- An operation whose outcome makes up the reply. -/
theorem Fares.replies {reply : Except Error α → Reply} (h : x.Fares smooth decides P)
    (ok : ∀ a, (reply (.ok a)).isFault = false)
    (error : ∀ e, decides → e.isStorageFault = false → (reply (.error e)).isFault = false) :
    (return reply (← x.run) : Task Reply).Follows (attending smooth) () fun r _ =>
      smooth → r.isFault = false := by
  refine Task.follows_bind.2 (follows_run.2 (Follows.mono h (fun a _ _ _ => ok a) ?_))
  intro e _ arises hsmooth
  exact error e (arises.smooth hsmooth).1 (arises.smooth hsmooth).2

/-- A list that cannot be shown is due to trouble, for there is nothing to decide. -/
theorem Fares.lists {x : Operation (List α)} {P : List α → Prop} {reply : List α → Reply}
    (h : x.Fares smooth False P) (rows : ∀ rows, (reply rows).isFault = false) :
    (return .ofRows reply (← x.run) : Task Reply).Follows (attending smooth) () fun r _ =>
      smooth → r.isFault = false :=
  h.replies rows fun _ => False.elim

end Operation

namespace Terms

variable {terms : Terms}

theorem answerLine_attends (prices : terms.tariff.Moderate) (line : List Char) :
    (terms.answerLine line).Follows (attending smooth) () fun reply _ =>
      smooth → reply.isFault = false := by
  rw [answerLine]
  cases Command.parse line with
  | error e => exact fun _ => rfl
  | ok command =>
      cases command with
      | rent item renter =>
          exact (fares_rent prices.baseFee renter item).replies (fun _ => rfl) fun e _ decision =>
            (Reply.isFault_ofRented e).trans decision
      | pay fee renter =>
          exact (fares_pay prices fee renter).replies (fun _ => rfl) fun e _ decision =>
            (Reply.isFault_ofSettlement e).trans decision
      | listFees renter => exact (fares_listFees prices renter).lists fun _ => rfl
      | listRentals renter => exact (fares_listRentals renter).lists fun _ => rfl
      | listInvoices renter => exact (fares_listInvoices renter).lists fun _ => rfl
      | listFilms => exact fares_listItems.lists fun _ => rfl

end Terms

/-- No service at moderate prices is answered by an overflow, nor by a fault of storage if all goes
smoothly. -/
theorem Service.attends {terms : Terms} (prices : terms.tariff.Moderate) (service : Service) :
    (service.task terms).Follows (attending smooth) () fun answer _ => answer.Arises smooth := by
  cases service with
  | register item => exact (fares_register item).answers (fun _ => ⟨rfl, rfl⟩) fun _ => ⟨rfl, rfl⟩
  | call call =>
      cases call with
      | rent renter item =>
          exact (fares_rent prices.baseFee renter item).answers (fun _ => ⟨rfl, rfl⟩)
            fun _ => ⟨rfl, rfl⟩
      | pay fee renter =>
          exact (fares_pay prices fee renter).answers (fun _ => ⟨rfl, rfl⟩) fun _ => ⟨rfl, rfl⟩
      | send line =>
          refine Task.follows_bind.2 ((terms.answerLine_attends prices line.toList).mono ?_)
          exact fun reply _ arises => ⟨fun _ he => (nomatch he), arises⟩
  | query query =>
      cases query with
      | listFees renter =>
          exact (fares_listFees prices renter).answers (fun _ => ⟨rfl, rfl⟩) fun _ => ⟨rfl, rfl⟩
      | listRentals renter =>
          exact (fares_listRentals renter).answers (fun _ => ⟨rfl, rfl⟩) fun _ => ⟨rfl, rfl⟩
      | listInvoices renter =>
          exact (fares_listInvoices renter).answers (fun _ => ⟨rfl, rfl⟩) fun _ => ⟨rfl, rfl⟩
      | listItems => exact fares_listItems.answers (fun _ => ⟨rfl, rfl⟩) fun _ => ⟨rfl, rfl⟩
      | storedFees renter =>
          exact (fares_feesOfRenter renter).answers (fun _ => ⟨rfl, rfl⟩) fun _ => ⟨rfl, rfl⟩
      | storedRentals renter =>
          exact (fares_rentalsOfRenter renter).answers (fun _ => ⟨rfl, rfl⟩) fun _ => ⟨rfl, rfl⟩
      | storedInvoices renter =>
          exact (fares_invoicesOfRenter renter).answers (fun _ => ⟨rfl, rfl⟩) fun _ => ⟨rfl, rfl⟩
      | item id =>
          exact (fares_checked (fares_look (.item id))).answers (fun _ => ⟨rfl, rfl⟩)
            fun _ => ⟨rfl, rfl⟩
      | known id => exact (fares_isKnown id).answers (fun _ => ⟨rfl, rfl⟩) fun _ => ⟨rfl, rfl⟩

end RentalDesk
