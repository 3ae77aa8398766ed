import RentalDesk.Proofs.Custody.Rules
import RentalDesk.Proofs.Errand
import RentalDesk.Script.Step

/-!
# Services of the desk

Items are registered, items are rented, fees are paid, and rows are listed. All of these services
keep to one policy, whatever the medium is: a row that is staged is new, or goes on from the row
that was read under its lock. Such a row keeps what it is about, and a closed rental or a settled
fee is not written again.
-/

namespace RentalDesk

open Operation Script

/-- What is done for somebody at the desk. -/
inductive Service where
  | register (item : Item)
  | call (call : Script.Call)
  | query (query : Script.Query)

def Service.task (terms : Terms) : Service → Task Script.Answer
  | .register item => return .flag (← (terms.register item).run)
  | .call request => request.task terms
  | .query look => look.task terms

/-- How a row may go on. A closed rental and a settled fee are final. -/
def Row.Continues : Row → Row → Prop
  | .item old, .item new => new.id = old.id ∧ new.title = old.title
  | .rental old, .rental new => new.id = old.id ∧ new.itemId = old.itemId ∧
      new.renterId = old.renterId ∧ new.rentedAt = old.rentedAt ∧ (old.isOpen = false → new = old)
  | .fee old, .fee new => new.id = old.id ∧ new.rentalId = old.rentalId ∧
      (old.isSettled = true → new = old)
  | _, _ => False

theorem Row.Continues.refl : (row : Row) → row.Continues row
  | .item _ => ⟨rfl, rfl⟩
  | .rental _ => ⟨rfl, rfl, rfl, rfl, fun _ => rfl⟩
  | .fee _ => ⟨rfl, rfl, fun _ => rfl⟩

theorem Row.Continues.trans {a b c : Row} (h : a.Continues b) (h' : b.Continues c) :
    a.Continues c := by
  cases a with
  | item a =>
      cases b with
      | item b =>
          cases c with
          | item c => exact ⟨h'.1.trans h.1, h'.2.trans h.2⟩
          | _ => exact h'.elim
      | _ => exact h.elim
  | rental a =>
      cases b with
      | rental b =>
          cases c with
          | rental c =>
              obtain ⟨hid, hitem, hrenter, htime, hclosed⟩ := h
              obtain ⟨hid', hitem', hrenter', htime', hclosed'⟩ := h'
              refine ⟨hid'.trans hid, hitem'.trans hitem, hrenter'.trans hrenter,
                htime'.trans htime, fun closed => ?_⟩
              obtain rfl := hclosed closed
              exact hclosed' closed
          | _ => exact h'.elim
      | _ => exact h.elim
  | fee a =>
      cases b with
      | fee b =>
          cases c with
          | fee c =>
              obtain ⟨hid, hrental, hsettled⟩ := h
              obtain ⟨hid', hrental', hsettled'⟩ := h'
              refine ⟨hid'.trans hid, hrental'.trans hrental, fun settled => ?_⟩
              obtain rfl := hsettled settled
              exact hsettled' settled
          | _ => exact h'.elim
      | _ => exact h.elim

/-- At most one row of each table is staged that was not inserted. -/
def WriteSet.Modest (w : WriteSet) : Prop :=
  ∃ (item : ItemId) (rental : RentalId) (fee : FeeId), ∀ key row, w.staged.row? key = some row →
    key ∈ w.inserted ∨ key = .item item ∨ key = .rental rental ∨ key = .fee fee

/-- Everything is watched, and only rows that were read under their locks are written again. -/
def Policy.history : Policy where
  watches _ := true
  continues := Row.Continues
  stages c row := ∃ old, (row.key, some old) ∈ c.known ∧ old.Continues row
  commits := WriteSet.Modest

theorem Policy.history_sound (medium : Medium) : Policy.history.Sound medium where
  refl := Row.Continues.refl
  trans := Row.Continues.trans
  stages := by
    rintro t last c row fits - - - ⟨old, known, continues⟩ -
    exact .inr ⟨old, (fits.known _ _ known).2.2.1, continues⟩

namespace Operation

variable {medium : Medium} {c : Custody}

theorem keeps_isKnown {p : Policy} (id : ItemId) : (isKnown id).Keeps p medium := by
  have looked : (checked .item (look (.item id))).Keeps p medium :=
    .bind (quiet_guard _).keeps fun _ => .lookItem id
  refine follows_bind.2 (follows_lift.2 (follows_run.2 (looked.mono ?_ ?_)))
  · rintro item _ rfl
    exact follows_pure.2 rfl
  · rintro e _ rfl
    exact follows_pure.2 rfl

theorem keeps_rentBody (terms : Terms) (renter : RenterId) (id : ItemId) :
    (terms.rentBody renter id).Follows (Policy.history.discipline medium) .start
      (fun _ c => c.ended = false ∧ c.writes.Modest) fun _ c => c.ended = false := by
  refine follows_bind.2 (keeps_lockItem rfl rfl rfl rfl (fun ticket item hkey hid => ?_)
    (fun c' working => follows_throw.2 working) fun _ _ working => working)
  dsimp only
  split
  · refine follows_bind.2 (keeps_checked rfl (fun _ => rfl) (keeps_updateItem rfl ?_ ?_
      fun _ => rfl))
    · exact ⟨.item item, List.mem_cons_self, rfl, rfl⟩
    refine follows_bind.2 (keeps_passes rfl rfl fun now => ?_)
    refine follows_bind.2 (keeps_checked rfl (fun _ => rfl)
      (keeps_insertRental rfl fun rental => ?_))
    refine follows_bind.2 (keeps_checked rfl (fun _ => rfl) (keeps_insertFee rfl fun fee => ?_))
    refine follows_pure.2 ⟨rfl, item.id, 0, 0, fun key row hrow => ?_⟩
    simp only [Custody.withWrites, Custody.knowing, Custody.start, WriteSet.insertFee,
      WriteSet.insertRental, WriteSet.withStaged, WriteSet.hold, WriteSet.empty,
      Tables.row?_putFee, Tables.row?_putRental, Tables.row?_putItem, Tables.row?_empty] at hrow ⊢
    grind
  · exact follows_bind.2 (follows_throw.2 rfl)

/-- The invoice is new, and the fee goes on from the one that is known. -/
theorem keeps_settle (known : Fee) {fee : Fee} {renter : RenterId} {now : Instant}
    {ok : InvoiceId → Custody → Prop} (working : c.ended = false)
    (hknown : (.fee known.id, some (.fee known)) ∈ c.known) (hid : fee.id = known.id)
    (hrental : fee.rentalId = known.rentalId) (unsettled : known.isSettled = false)
    (settled : ∀ id, ok id (c.withWrites (c.writes.withStaged
      (c.writes.staged.settle fee (NewInvoice.withId ⟨renter, now, fee.amount⟩ id))))) :
    (Terms.settle fee renter now).Follows (Policy.history.discipline medium) c ok
      fun _ c => c.ended = false := by
  refine follows_bind.2 (keeps_checked working (fun _ => working) (keeps_insertInvoice working
    fun id => ?_))
  refine follows_bind.2 (keeps_checked working (fun _ => working) (keeps_updateFee working ?_ ?_
    fun _ => working))
  · refine ⟨.fee known, ?_, hid, hrental, fun settled => ?_⟩
    · rw [Row.key, hid]
      exact hknown
    · rw [unsettled] at settled
      cases settled
  · exact follows_pure.2 (settled id)

/-- The rental and its item go on from those that are known. -/
theorem keeps_closeRental {terms : Terms} {fee : Fee} {rental : Rental} {now : Instant}
    {ok : Fee × ItemId → Custody → Prop} (working : c.ended = false)
    (free : c.writes.holds (.item rental.itemId) = false)
    (unstaged : c.writes.staged.items.get? rental.itemId = none)
    (hknown : (.rental rental.id, some (.rental rental)) ∈ c.known) (still : rental.isOpen = true)
    (closed : ∀ ticket item amount, item.id = rental.itemId →
      terms.tariff.accrued fee.amount rental.rentedAt now = .ok amount →
      ok ({ fee with
            amount, reason := closingReason (Tariff.elapsedMinutes rental.rentedAt now) }, item.id)
        ((c.knowing (.item item)).withWrites
          ((c.writes.hold ticket).withStaged (c.writes.staged.close item rental now)))) :
    (terms.closeRental fee rental now).Follows (Policy.history.discipline medium) c ok
      fun _ c => c.ended = false := by
  refine follows_bind.2 (keeps_lockItem working rfl free unstaged (fun ticket item hkey hid => ?_)
    (fun c' working => follows_throw.2 working) fun _ _ working => working)
  refine follows_bind.2 (follows_ofExcept.2 ?_)
  cases accrued : terms.tariff.accrued fee.amount rental.rentedAt now with
  | error e => exact working
  | ok amount =>
      refine follows_bind.2 (keeps_checked working (fun _ => working) (keeps_updateRental working
        ?_ ?_ fun _ => working))
      · refine ⟨.rental rental, List.mem_cons_of_mem _ hknown, rfl, rfl, rfl, rfl, fun closed => ?_⟩
        rw [still] at closed
        cases closed
      refine follows_bind.2 (keeps_checked working (fun _ => working) (keeps_updateItem working
        ⟨.item item, List.mem_cons_self, rfl, rfl⟩ ?_ fun _ => working))
      exact follows_pure.2 (closed ticket item amount hid accrued)

theorem keeps_payBody (terms : Terms) (id : FeeId) (renter : RenterId) :
    (terms.payBody id renter).Follows (Policy.history.discipline medium) .start
      (fun _ c => c.ended = false ∧ c.writes.Modest) fun _ c => c.ended = false := by
  refine follows_bind.2 (keeps_checked rfl (fun _ => rfl) (keeps_lockFee rfl rfl ?_
    (fun c' working => follows_throw.2 working) fun _ _ working => working))
  intro first second fee rental hfirst hsecond hfee hrental
  dsimp only
  split
  · exact follows_bind.2 (follows_throw.2 rfl)
  next hsettled =>
  have unsettled : fee.isSettled = false := by
    rwa [Fee.isSettled, Medium.settlement_fee, Bool.not_eq_true] at hsettled
  split
  · exact follows_bind.2 (follows_throw.2 rfl)
  refine follows_bind.2 (keeps_passes rfl rfl fun now => ?_)
  split
  · next still =>
      refine follows_bind.2 (keeps_closeRental rfl ?_ rfl List.mem_cons_self still
        fun ticket item amount _ _ => ?_)
      · simp [hfirst, hsecond]
      refine follows_bind.2 (keeps_settle fee rfl ?_ (Medium.id_fee ..)
        (Medium.rentalId_fee ..) unsettled fun invoice =>
          follows_pure.2 ⟨rfl, item.id, rental.id, fee.id, fun key row hrow => ?_⟩)
      · simp [Custody.withWrites, Custody.knowing]
      simp only [Custody.withWrites, WriteSet.withStaged, WriteSet.hold, WriteSet.empty,
        Tables.settle, Tables.close, Tables.row?_putFee, Tables.row?_putInvoice,
        Tables.row?_putItem, Tables.row?_putRental, Tables.row?_empty, Medium.id_fee] at hrow ⊢
      grind
  · refine follows_bind.2 (keeps_settle fee rfl ?_ (Medium.id_fee ..)
      (Medium.rentalId_fee ..) unsettled fun invoice => follows_pure.2 ⟨rfl, 0, 0, fee.id, ?_⟩)
    · simp
    · intro key row hrow
      simp only [Custody.withWrites, WriteSet.withStaged, WriteSet.hold, WriteSet.empty,
        Tables.settle, Tables.row?_putFee, Tables.row?_putInvoice, Tables.row?_empty,
        Medium.id_fee] at hrow ⊢
      grind

end Operation

namespace Terms

variable (terms : Terms)

theorem keeps_rent (renter : RenterId) (id : ItemId) :
    (terms.rent renter id).Keeps .history terms.medium := by
  rw [Terms.rent]
  split
  · exact follows_bind.2 (follows_throw.2 rfl)
  split
  · exact follows_bind.2 (follows_throw.2 rfl)
  refine .bind (keeps_isKnown id) fun known => ?_
  cases known with
  | false => exact follows_bind.2 (follows_throw.2 rfl)
  | true => exact keeps_transaction (keeps_rentBody terms renter id)

theorem keeps_pay (id : FeeId) (renter : RenterId) :
    (terms.pay id renter).Keeps .history terms.medium := by
  rw [Terms.pay]
  split
  · exact follows_bind.2 (follows_throw.2 rfl)
  refine .bind (keeps_transaction (keeps_payBody terms id renter)) fun settlement => ?_
  cases settlement.returnedItem with
  | none => exact (Only.pure settlement).keeps
  | some item => exact follows_bind.2 (keeps_announce rfl (follows_pure.2 rfl))

end Terms

/-! ## All services -/

theorem Terms.keeps_answer (terms : Terms) (command : Command) :
    (terms.answer command).Keeps .history terms.medium := by
  cases command with
  | rent item renter => exact (terms.keeps_rent renter item).answered _
  | pay fee renter => exact (terms.keeps_pay fee renter).answered _
  | listFees renter => exact (quiet_listFees terms renter).keeps.answered _
  | listRentals renter => exact (quiet_listRentals renter).keeps.answered _
  | listInvoices renter => exact (quiet_listInvoices renter).keeps.answered _
  | listFilms => exact quiet_listItems.keeps.answered _

theorem Terms.keeps_answerLine (terms : Terms) (line : List Char) :
    (terms.answerLine line).Keeps .history terms.medium := by
  rw [Terms.answerLine]
  split
  · exact terms.keeps_answer _
  · exact Task.follows_pure.2 rfl

/-- Whatever the desk does for somebody, the rows that it writes go on from those that it knows. -/
theorem Service.keeps (service : Service) (terms : Terms) :
    (service.task terms).Keeps .history terms.medium := by
  cases service with
  | register item => exact (keeps_register terms item).answered _
  | call request =>
      cases request with
      | rent renter item => exact (terms.keeps_rent renter item).answered _
      | pay fee renter => exact (terms.keeps_pay fee renter).answered _
      | send line =>
          refine Task.follows_bind.2 ((terms.keeps_answerLine line.toList).mono ?_)
          rintro reply _ rfl
          exact Task.follows_pure.2 rfl
  | query look =>
      cases look with
      | listFees renter => exact (quiet_listFees terms renter).keeps.answered _
      | listRentals renter => exact (quiet_listRentals renter).keeps.answered _
      | listInvoices renter => exact (quiet_listInvoices renter).keeps.answered _
      | listItems => exact quiet_listItems.keeps.answered _
      | storedFees renter => exact (quiet_feesOfRenter terms renter).keeps.answered _
      | storedRentals renter => exact (quiet_rentalsOfRenter renter).keeps.answered _
      | storedInvoices renter => exact (quiet_invoicesOfRenter renter).keeps.answered _
      | item id =>
          exact (Keeps.bind (quiet_guard _).keeps fun _ => .lookItem id).answered _
      | known id => exact (keeps_isKnown id).answered _

end RentalDesk
