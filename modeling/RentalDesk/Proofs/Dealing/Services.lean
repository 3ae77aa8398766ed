import RentalDesk.Proofs.Dealing.Watch

/-!
# Services are dealings

Every service of the desk commits only what is prepared, on behalf of the renter that it names. A
rent reads the clock under the lock of the item; a payment reads it under the locks of the fee and
its rental, before it waits for the item.
-/

namespace RentalDesk

open Operation

/-- The renter that a request names. -/
def Command.renter? : Command → Option RenterId
  | .rent _ renter | .pay _ renter | .listFees renter | .listRentals renter
  | .listInvoices renter => some renter
  | .listFilms => none

/-- The renter that a line names. A line that is no request names nobody. -/
def renterOfLine? (line : List Char) : Option RenterId :=
  match Command.parse line with
  | .ok command => command.renter?
  | .error _ => none

/-- The renter whom a service is done for. -/
def Service.renter? : Service → Option RenterId
  | .register _ => none
  | .call (.rent renter _) | .call (.pay _ renter) => some renter
  | .call (.send line) => renterOfLine? line.toList
  | .query _ => none

/-- The invoice that settles a fee was drawn. -/
theorem WriteSet.drew_settle (w : WriteSet) (t : Tables) (fee : Fee) (invoice : Invoice) :
    (w.withStaged (t.settle fee invoice)).drew .invoices invoice.id = true := by
  simp [drew, withStaged]

namespace Operation

variable {terms : Terms}

/-- Work in a transaction, under the name of which it may be made to fail. -/
theorem Asks.works_checked {α : Type} {call : StoreCall} {x : Operation α}
    (h : x.Asks Action.works) : (Operation.checked call x).Asks Action.works :=
  .checked (fun _ => rfl) h

theorem prepares_rentBody (terms : Terms) (renter : RenterId) (id : ItemId) :
    (terms.rentBody renter id).Prepares terms (some renter) (.rent id renter)
      fun rented => .ofRented (.ok rented) := by
  rintro ⟨custody, moment, behalf⟩ ⟨rfl, rfl⟩
  refine follows_bind.2 ((works_lockItem id).deals (keeps_lockItem rfl rfl rfl rfl
    (fun ticket item hkey hid => ?_) (fun c' working => follows_throw.2 ⟨working, rfl⟩)
    fun _ _ working => ⟨working, rfl⟩))
  subst hid
  dsimp only
  split
  · next available =>
      refine follows_bind.2 ((works_updateItem _).works_checked.deals
        (keeps_checked rfl (fun _ => ⟨rfl, rfl⟩) (keeps_updateItem rfl ?_ ?_ fun _ => ⟨rfl, rfl⟩)))
      · exact ⟨.item item, List.mem_cons_self, rfl, rfl⟩
      refine follows_bind.2 (deals_now rfl fun now => ?_)
      refine follows_bind.2 ((Asks.perform rfl).works_checked.deals
        (keeps_checked rfl (fun _ => ⟨rfl, rfl⟩) (keeps_insertRental rfl fun rental => ?_)))
      refine follows_bind.2 ((Asks.perform rfl).works_checked.deals
        (keeps_checked rfl (fun _ => ⟨rfl, rfl⟩) (keeps_insertFee rfl fun fee => ?_)))
      let c : Circumstances := ⟨terms.tariff, now, ⟨⟨rental⟩, ⟨fee⟩, ⟨0⟩⟩⟩
      refine follows_pure.2 ⟨rfl, rfl, .lent (c := c) rfl rfl rfl
        ⟨List.mem_cons_self, List.mem_cons_self⟩ available ?_ ?_ rfl⟩
      · simp [Watch.hand, Custody.withWrites, WriteSet.drew_insertFee,
          WriteSet.drew_insertRental, c, NewRental.withId, Sequences.next]
      · simp [Watch.hand, Custody.withWrites, WriteSet.drew_insertFee, c, NewFee.withId,
          Sequences.next]
  · exact follows_bind.2 (follows_throw.2 ⟨rfl, rfl⟩)

section

variable {w : Watch} {failed : Error → Watch → Prop}
  (refused : ∀ e custody, custody.ended = false → failed e (w.hand custody))
include refused

theorem deals_settle (known : Fee) {fee : Fee} {renter : RenterId} {now : Instant}
    {ok : InvoiceId → Watch → Prop} (working : w.custody.ended = false)
    (hknown : (.fee known.id, some (.fee known)) ∈ w.custody.known) (hid : fee.id = known.id)
    (hrental : fee.rentalId = known.rentalId) (unsettled : known.isSettled = false)
    (settled : ∀ id, ok id (w.hand (w.custody.withWrites (w.custody.writes.withStaged
      (w.custody.writes.staged.settle fee (NewInvoice.withId ⟨renter, now, fee.amount⟩ id)))))) :
    (Terms.settle fee renter now).Follows (dealing terms) w ok failed := by
  have custody : (Terms.settle fee renter now).Follows (Policy.history.discipline terms.medium)
      w.custody (fun id c => ok id (w.hand c)) fun _ c => c.ended = false :=
    keeps_settle known working hknown hid hrental unsettled settled
  exact (works_settle fee renter now).deals (custody.mono (fun _ _ ends => ends) refused)

theorem deals_closeRental {fee : Fee} {rental : Rental} {now : Instant}
    {ok : Fee × ItemId → Watch → Prop} (working : w.custody.ended = false)
    (free : w.custody.writes.holds (.item rental.itemId) = false)
    (unstaged : w.custody.writes.staged.items.get? rental.itemId = none)
    (hknown : (.rental rental.id, some (.rental rental)) ∈ w.custody.known)
    (still : rental.isOpen = true)
    (closed : ∀ ticket item amount, item.id = rental.itemId →
      terms.tariff.accrued fee.amount rental.rentedAt now = .ok amount →
      ok ({ fee with
            amount, reason := closingReason (Tariff.elapsedMinutes rental.rentedAt now) }, item.id)
        (w.hand ((w.custody.knowing (.item item)).withWrites
          ((w.custody.writes.hold ticket).withStaged
            (w.custody.writes.staged.close item rental now))))) :
    (terms.closeRental fee rental now).Follows (dealing terms) w ok failed := by
  have custody : (terms.closeRental fee rental now).Follows
      (Policy.history.discipline terms.medium) w.custody (fun a c => ok a (w.hand c))
      fun _ c => c.ended = false :=
    keeps_closeRental working free unstaged hknown still closed
  exact (works_closeRental terms fee rental now).deals (custody.mono (fun _ _ ends => ends) refused)

end

theorem prepares_payBody (terms : Terms) (id : FeeId) (renter : RenterId) :
    (terms.payBody id renter).Prepares terms (some renter) (.pay id renter)
      fun settlement => .ofSettlement (.ok settlement) := by
  rintro ⟨custody, moment, behalf⟩ ⟨rfl, rfl⟩
  refine follows_bind.2 ((works_lockFee id).works_checked.deals
    (keeps_checked rfl (fun _ => ⟨rfl, rfl⟩) (keeps_lockFee rfl rfl ?_
      (fun c' working => follows_throw.2 ⟨working, rfl⟩) fun _ _ working => ⟨working, rfl⟩)))
  intro first second fee rental hfirst hsecond hfee hrental
  subst hfee
  dsimp only
  split
  · exact follows_bind.2 (follows_throw.2 ⟨rfl, rfl⟩)
  next hsettled =>
  have unsettled : fee.isSettled = false := by
    rwa [Fee.isSettled, Medium.settlement_fee, Bool.not_eq_true] at hsettled
  split
  · exact follows_bind.2 (follows_throw.2 ⟨rfl, rfl⟩)
  next howner =>
  obtain rfl := Decidable.not_not.1 howner
  refine follows_bind.2 (deals_now rfl fun now => ?_)
  split
  · next still =>
      refine follows_bind.2 (deals_closeRental (fun _ _ working => ⟨working, rfl⟩) rfl ?_ rfl
        List.mem_cons_self still fun ticket item amount home accrued => ?_)
      · simp [Watch.hand, hfirst, hsecond]
      refine follows_bind.2 (deals_settle (fun _ _ working => ⟨working, rfl⟩) fee rfl ?_
        (Medium.id_fee ..) (Medium.rentalId_fee ..) unsettled fun invoice => ?_)
      · simp [Watch.hand, Custody.withWrites, Custody.knowing]
      let c : Circumstances := ⟨terms.tariff, now, ⟨⟨0⟩, ⟨0⟩, ⟨invoice⟩⟩⟩
      refine follows_pure.2 ⟨rfl, rfl, .returned (c := c) rfl rfl rfl ⟨?_, ?_⟩ unsettled ⟨?_, ?_⟩
        hrental still ?_ home accrued ?_ rfl⟩
      case refine_6 => exact WriteSet.drew_settle ..
      all_goals simp [Watch.hand, Custody.withWrites, Custody.knowing, Row.key]
  · next closed =>
      refine follows_bind.2 (deals_settle (fun _ _ working => ⟨working, rfl⟩) fee rfl ?_
        (Medium.id_fee ..) (Medium.rentalId_fee ..) unsettled fun invoice => ?_)
      · simp [Watch.hand]
      let c : Circumstances := ⟨terms.tariff, now, ⟨⟨0⟩, ⟨0⟩, ⟨invoice⟩⟩⟩
      refine follows_pure.2 ⟨rfl, rfl, .paid (c := c) rfl rfl rfl ⟨?_, ?_⟩ unsettled ⟨?_, ?_⟩
        hrental (Bool.eq_false_iff.2 closed) ?_ rfl⟩
      case refine_5 => exact WriteSet.drew_settle ..
      all_goals simp [Watch.hand, Custody.withWrites, Row.key]

theorem deals_isKnown (terms : Terms) (renter? : Option RenterId) (id : ItemId) :
    (isKnown id).Deals terms renter? :=
  Keeps.deals (keeps_isKnown id) ((works_isKnown id).mono commitsNothing_of_works)

end Operation

namespace Terms

variable (terms : Terms)

theorem deals_rent (renter : RenterId) (id : ItemId) :
    (terms.rent renter id).Deals terms (some renter) := by
  rw [Terms.rent]
  split
  · exact .throw_bind _ _
  split
  · exact .throw_bind _ _
  refine .bind (deals_isKnown terms _ id) fun known => ?_
  cases known with
  | false => exact .throw_bind _ _
  | true => exact deals_transaction (prepares_rentBody terms renter id)

theorem deals_pay (id : FeeId) (renter : RenterId) :
    (terms.pay id renter).Deals terms (some renter) := by
  rw [Terms.pay]
  split
  · exact .throw_bind _ _
  refine .bind (deals_transaction (prepares_payBody terms id renter)) fun settlement => ?_
  cases settlement.returnedItem with
  | none => exact (Only.pure settlement).deals
  | some item => exact .bind (deals_announce item) fun _ => (Only.pure settlement).deals

end Terms

/-! ## All services -/

/-- The task commits nothing but what is prepared, on behalf of the renter. -/
abbrev Task.Deals {α : Type} (terms : Terms) (renter? : Option RenterId) (task : Task α) : Prop :=
  task.Follows (dealing terms) (.start renter?) fun _ _ => True

theorem Operation.Deals.answered {α β : Type} {terms : Terms} {renter? : Option RenterId}
    {x : Operation α} (h : x.Deals terms renter?) (answer : Except Error α → β) :
    Task.Deals terms renter? (x.run >>= fun result => pure (answer result)) :=
  Task.follows_bind.2 (follows_run.2 ((h _ ⟨rfl, rfl⟩).mono (fun _ _ _ => trivial)
    fun _ _ _ => trivial))

namespace Terms

variable (terms : Terms)

theorem deals_answer (command : Command) : (terms.answer command).Deals terms command.renter? := by
  cases command with
  | rent item renter => exact (terms.deals_rent renter item).answered _
  | pay fee renter => exact (terms.deals_pay fee renter).answered _
  | listFees renter => exact (quiet_listFees terms renter).deals.answered _
  | listRentals renter => exact (quiet_listRentals renter).deals.answered _
  | listInvoices renter => exact (quiet_listInvoices renter).deals.answered _
  | listFilms => exact quiet_listItems.deals.answered _

theorem deals_answerLine (line : List Char) :
    (terms.answerLine line).Deals terms (renterOfLine? line) := by
  rw [Terms.answerLine, renterOfLine?]
  cases Command.parse line with
  | ok command => exact terms.deals_answer command
  | error e => exact Task.follows_pure.2 trivial

end Terms

/-- Whatever the desk does for somebody, it commits nothing but what is prepared, on behalf of the
renter whom it does it for. -/
theorem Service.deals (service : Service) (terms : Terms) :
    (service.task terms).Deals terms service.renter? := by
  cases service with
  | register item =>
      have quiet := (asks_register terms item).mono commitsNothing_of_registers
      exact (Keeps.deals (keeps_register terms item) quiet).answered _
  | call request =>
      cases request with
      | rent renter item => exact (terms.deals_rent renter item).answered _
      | pay fee renter => exact (terms.deals_pay fee renter).answered _
      | send line =>
          refine Task.follows_bind.2 ((terms.deals_answerLine line.toList).mono fun reply _ _ => ?_)
          exact Task.follows_pure.2 trivial
  | query look =>
      cases look with
      | listFees renter => exact (quiet_listFees terms renter).deals.answered _
      | listRentals renter => exact (quiet_listRentals renter).deals.answered _
      | listInvoices renter => exact (quiet_listInvoices renter).deals.answered _
      | listItems => exact quiet_listItems.deals.answered _
      | storedFees renter => exact (quiet_feesOfRenter terms renter).deals.answered _
      | storedRentals renter => exact (quiet_rentalsOfRenter renter).deals.answered _
      | storedInvoices renter => exact (quiet_invoicesOfRenter renter).deals.answered _
      | item id =>
          refine (Keeps.deals (Keeps.bind (quiet_guard _).keeps fun _ =>
            .lookItem id) ?_).answered _
          exact .checked (fun _ => rfl) (.look rfl)
      | known id => exact (deals_isKnown terms none id).answered _

end RentalDesk
