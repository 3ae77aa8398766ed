import RentalDesk.Proofs.Dealing.Deals

/-!
# The handling of a request

A request line is handled as a dealing that commits once at most, only when all rows that it has to
write are staged, and only if it is then answered by success. `Terms.Writes` says which rows these
are, given the committed rows, the time and the identifiers that are drawn; it leaves nothing open.
Apart from the commit a request asks for nothing that would change a row, and it has nothing in
custody when it is answered. The rows that it goes on from are the committed ones at the time of the
commit, for they were locked since they were read.
-/

namespace RentalDesk

/-- Whether the reply tells of success at changing rows. -/
def Reply.succeeds : Reply → Bool
  | .rent .ok _ | .pay .settled _ => true
  | _ => false

/-- The rows that a request line writes if it is answered by the reply: all of them, and no others.
They go on from the committed rows, and what is inserted is new. -/
inductive Terms.Writes (terms : Terms) (line : List Char) (t : Tables) (c : Circumstances) :
    Reply → Tables → Prop
  | rented {id : ItemId} {renter : RenterId} {item : Item}
      (request : Command.parse line = .ok (.rent id renter)) (prices : c.tariff = terms.tariff)
      (found : t.items.get? id = some item) (available : item.available = true)
      (rentalNew : t.rentals.get? (c.rental renter id).id = none)
      (feeNew : t.fees.get? c.fee.id = none) :
      Writes terms line t c (.rent .ok c.fee.amount)
        (Tables.empty.lend item (c.rental renter id) c.fee)
  | returned {id : FeeId} {renter : RenterId} {fee : Fee} {rental : Rental} {item : Item}
      {amount : Decimal} (request : Command.parse line = .ok (.pay id renter))
      (prices : c.tariff = terms.tariff) (owed : t.fees.get? id = some fee)
      (unsettled : fee.settlement = none) (lent : t.rentals.get? fee.rentalId = some rental)
      (owner : rental.renterId = renter) (still : rental.returnedAt = none)
      (found : t.items.get? rental.itemId = some item)
      (accrued : c.tariff.accrued (terms.medium.fee fee).amount rental.rentedAt c.now = .ok amount)
      (new : t.invoices.get? (c.invoice renter amount).id = none) :
      Writes terms line t c (.pay .settled amount)
        ((Tables.empty.close item rental c.now).settle
          (c.finalFee (terms.medium.fee fee) rental amount) (c.invoice renter amount))
  | paid {id : FeeId} {renter : RenterId} {fee : Fee} {rental : Rental} {time : Instant}
      (request : Command.parse line = .ok (.pay id renter)) (prices : c.tariff = terms.tariff)
      (owed : t.fees.get? id = some fee) (unsettled : fee.settlement = none)
      (lent : t.rentals.get? fee.rentalId = some rental) (owner : rental.renterId = renter)
      (back : rental.returnedAt = some time)
      (new : t.invoices.get? (c.invoice renter (terms.medium.fee fee).amount).id = none) :
      Writes terms line t c (.pay .settled (terms.medium.fee fee).amount)
        (Tables.empty.settle (terms.medium.fee fee)
          (c.invoice renter (terms.medium.fee fee).amount))

namespace Terms.Writes

variable {terms : Terms} {line : List Char} {t : Tables} {c : Circumstances}
  {reply reply' : Reply} {staged staged' : Tables}

/-- The reply and the rows that are written are determined by the line, the committed rows and the
circumstances. -/
theorem unique (h : terms.Writes line t c reply staged) (h' : terms.Writes line t c reply' staged') :
    reply = reply' ∧ staged = staged' := by
  cases h with
  | rented request _ found =>
      cases h' with
      | rented request' _ found' =>
          cases request.symm.trans request'
          cases found.symm.trans found'
          exact ⟨rfl, rfl⟩
      | returned request' => cases request.symm.trans request'
      | paid request' => cases request.symm.trans request'
  | returned request _ owed _ lent _ still found accrued =>
      cases h' with
      | rented request' => cases request.symm.trans request'
      | returned request' _ owed' _ lent' _ _ found' accrued' =>
          cases request.symm.trans request'
          cases owed.symm.trans owed'
          cases lent.symm.trans lent'
          cases found.symm.trans found'
          cases accrued.symm.trans accrued'
          exact ⟨rfl, rfl⟩
      | paid request' _ owed' _ lent' _ back =>
          cases request.symm.trans request'
          cases owed.symm.trans owed'
          cases lent.symm.trans lent'
          cases still.symm.trans back
  | paid request _ owed _ lent _ back =>
      cases h' with
      | rented request' => cases request.symm.trans request'
      | returned request' _ owed' _ lent' _ still =>
          cases request.symm.trans request'
          cases owed.symm.trans owed'
          cases lent.symm.trans lent'
          cases still.symm.trans back
      | paid request' _ owed' _ lent' =>
          cases request.symm.trans request'
          cases owed.symm.trans owed'
          exact ⟨rfl, rfl⟩

end Terms.Writes

/-! ## What is prepared for a request line -/

namespace Watch

variable {terms : Terms} {line : List Char} {t : Tables} {last : Series → Nat} {w : Watch}
  {reply : Reply}

/-- What is staged can be committed for the request line, if the reply answers it then. -/
def PreparedFor (w : Watch) (terms : Terms) (line : List Char) (reply : Reply) : Prop :=
  ∃ command, Command.parse line = .ok command ∧ w.Prepared terms command reply

/-- What is prepared for a request line is what it writes. -/
theorem PreparedFor.writes (h : w.PreparedFor terms line reply)
    (fits : Policy.history.Fits terms.medium t last w.custody) (working : w.custody.ended = false) :
    ∃ c known, w.moment? = some ⟨c.now, known⟩ ∧
      terms.Writes line t c reply w.custody.writes.staged := by
  obtain ⟨command, request, prepared⟩ := h
  have unused := fun s id => fits.fresh working s id rfl
  cases prepared with
  | @lent c known renter item prices moment _ found available rentalDrawn feeDrawn staged =>
      rw [staged]
      exact ⟨c, known, moment, .rented request prices (Tables.row?_item.1 (found.found fits))
        available (Tables.get?_of_unused_rental (unused _ _ rentalDrawn))
        (Tables.get?_of_unused_fee (unused _ _ feeDrawn))⟩
  | @returned c known fee rental item amount prices moment _ owed unsettled lent of still found
      home accrued drawn staged =>
      rw [staged]
      have unsettled := Option.isNone_iff_eq_none.1 (Option.isSome_eq_false_iff.1 unsettled)
      have lent := Tables.row?_rental.1 (lent.found fits)
      have found := Tables.row?_item.1 (fits.known _ _ found).2.2.1
      rw [of] at lent
      rw [home] at found
      rw [← prices] at accrued
      exact ⟨c, known, moment, .returned request prices (Tables.row?_fee.1 (owed.found fits))
        unsettled lent rfl (Option.isNone_iff_eq_none.1 still) found accrued
        (Tables.get?_of_unused_invoice (unused _ _ drawn))⟩
  | @paid c known fee rental prices moment _ owed unsettled lent of closed drawn staged =>
      rw [staged]
      have unsettled := Option.isNone_iff_eq_none.1 (Option.isSome_eq_false_iff.1 unsettled)
      have lent := Tables.row?_rental.1 (lent.found fits)
      rw [of] at lent
      obtain ⟨time, back⟩ := Option.isSome_iff_exists.1 (Option.isNone_eq_false_iff.1 closed)
      exact ⟨c, known, moment, .paid request prices (Tables.row?_fee.1 (owed.found fits))
        unsettled lent rfl back (Tables.get?_of_unused_invoice (unused _ _ drawn))⟩

theorem PreparedFor.succeeds (h : w.PreparedFor terms line reply) : reply.succeeds = true := by
  obtain ⟨command, -, prepared⟩ := h
  cases prepared <;> rfl

end Watch

/-! ## The discipline -/

/-- How far a request has come: the watch over it, and the watch when its rows were committed. -/
structure Course where
  watch : Watch
  applied : Option Watch

/-- The progress of a request that has just been made. -/
def Course.start (renter? : Option RenterId) : Course := ⟨.start renter?, none⟩

/-- How a request line is handled: as a dealing that commits once at most, and then what it has to
write. An item is announced after that. -/
def Terms.handling (terms : Terms) (line : List Char) : Discipline Course where
  permits p action := (dealing terms).permits p.watch action ∧
    match action with
    | .apply => p.applied = none ∧ ∃ reply, p.watch.PreparedFor terms line reply
    | .announce _ => p.applied.isSome = true
    | .registerItem _ | .placeItem _ => False
    | _ => True
  answers p action answer p' := (dealing terms).answers p.watch action answer p'.watch ∧
    p'.applied = if action = .apply then some p.watch else p.applied
  grants p key granted p' := (dealing terms).grants p.watch key granted p'.watch ∧
    p'.applied = p.applied

/-- How a request may end: with nothing in custody, and with success if and only if its rows were
committed. -/
structure Course.Ends (p : Course) (terms : Terms) (line : List Char) (reply : Reply) :
    Prop where
  custody : p.watch.custody = .start
  success : ∀ w, p.applied = some w → w.PreparedFor terms line reply
  failure : p.applied = none → reply.succeeds = false

/-- The action neither commits nor announces anything. -/
def Action.discreet : Action → Bool
  | .apply | .registerItem _ | .placeItem _ | .announce _ => false
  | _ => true

theorem discreet_of_works (action : Action) (works : action.works = true) :
    action.discreet = true := by
  cases action <;> first | rfl | cases works

theorem discreet_of_passes (action : Action) (passes : action.passes = true) :
    action.discreet = true := by
  cases action <;> first | rfl | cases passes

variable {α : Type} {terms : Terms} {line : List Char} {p : Course}

/-- What was shown of the watch over a task holds while a request is handled, if the task neither
commits nor announces anything. -/
theorem Task.Asks.handles {t : Task α} {ends : α → Watch → Prop} (h : t.Asks Action.discreet)
    (follows : t.Follows (dealing terms) p.watch ends) :
    t.Follows (terms.handling line) p fun a p' => ends a p'.watch ∧ p'.applied = p.applied := by
  induction t generalizing p with
  | done a => exact ⟨follows, rfl⟩
  | act action next ih =>
      refine ⟨⟨follows.1, ?_⟩, ?_⟩
      · cases action
        case apply => cases h.1
        case announce => cases h.1
        case registerItem => cases h.1
        case placeItem => cases h.1
        all_goals trivial
      · rintro answer p' ⟨answers, applied⟩
        have other : action ≠ .apply := by
          rintro rfl
          cases h.1
        rw [if_neg other] at applied
        rw [← applied]
        exact ih answer (h.2 answer) (follows.2 answer _ answers)
  | acquire key next ih =>
      rintro granted p' ⟨grants, applied⟩
      rw [← applied]
      exact ih granted (h granted) (follows granted _ grants)

namespace Operation

variable {renter? : Option RenterId} {w : Watch} {command : Command}
  {ok : α → Course → Prop} {failed : Error → Course → Prop}

theorem Asks.handles {x : Operation α} (h : x.Asks Action.discreet)
    (follows : x.Follows (dealing terms) p.watch (fun a w => ok a ⟨w, p.applied⟩)
      fun e w => failed e ⟨w, p.applied⟩) : x.Follows (terms.handling line) p ok failed := by
  refine (Task.Asks.handles h follows).mono ?_
  rintro result ⟨w, _⟩ ⟨ends, rfl⟩
  cases result <;> exact ends

/-- An operation that starts and ends with nothing in custody. -/
theorem Deals.handles {x : Operation α} (deals : x.Deals terms renter?)
    (h : x.Asks Action.discreet) (rests : Rests renter? p.watch)
    (hok : ∀ a w, Rests renter? w → ok a ⟨w, p.applied⟩)
    (hfailed : ∀ e w, Rests renter? w → failed e ⟨w, p.applied⟩) :
    x.Follows (terms.handling line) p ok failed :=
  h.handles ((deals p.watch rests).mono hok hfailed)

/-! ## Transactions -/

/-- What was prepared is committed, unless the commit fails before it does anything. -/
theorem handles_commit {reply : Reply} (working : w.custody.ended = false)
    (request : Command.parse line = .ok command) (prepared : w.Prepared terms command reply) :
    commit.Follows (terms.handling line) ⟨w, none⟩
      (fun _ p => Rests w.renter? p.watch ∧ p.applied = some w)
      fun _ p => Rests w.renter? p.watch ∧ p.applied = none := by
  refine follows_bind.2 (Asks.handles (.perform rfl) (deals_fails working fun failing => ?_))
  cases failing with
  | true =>
      refine follows_bind.2 (Asks.handles (.perform rfl) (deals_release ?_))
      exact follows_throw.2 ⟨⟨rfl, rfl⟩, rfl⟩
  | false =>
      have permits : (dealing terms).permits w .apply :=
        ⟨⟨working, prepared.modest⟩, fun _ => ⟨_, _, prepared⟩⟩
      refine follows_bind.2 (follows_perform.2
        ⟨⟨permits, rfl, reply, command, request, prepared⟩, ?_⟩)
      rintro _ ⟨_, _⟩ ⟨⟨c, -, rfl⟩, rfl⟩
      exact Asks.handles (.perform rfl) (deals_release ⟨⟨rfl, rfl⟩, rfl⟩)

/-- A transaction commits what its body has prepared, or nothing. Afterwards nothing is in
custody. -/
theorem handles_transaction {body : Operation α} {reply : α → Reply}
    (request : Command.parse line = .ok command)
    (prepares : body.Prepares terms renter? command reply) (h : body.Asks Action.discreet)
    (rests : Rests renter? w) :
    (transaction body).Follows (terms.handling line) ⟨w, none⟩
      (fun a p => Rests renter? p.watch ∧
        ∃ w, p.applied = some w ∧ w.PreparedFor terms line (reply a))
      fun _ p => Rests renter? p.watch ∧ p.applied = none := by
  refine follows_bind.2 (Deals.handles (quiet_guard .begin).deals
    ((Task.Only.asks (quiet_guard .begin)).mono discreet_of_passes) rests
    (fun _ w rests => ?_) fun _ w rests => ⟨rests, rfl⟩)
  refine follows_bind.2 (follows_lift.2 (follows_run.2 (h.handles
    ((prepares w rests).mono ?_ ?_))))
  · rintro a w ⟨working, rfl, prepared⟩
    refine follows_bind.2 ((handles_commit working request prepared).mono ?_ fun _ _ => id)
    rintro _ p ⟨rests, applied⟩
    exact follows_pure.2 ⟨rests, w, applied, command, request, prepared⟩
  · rintro e w ⟨working, rfl⟩
    have asks : rollback.Asks Action.discreet :=
      Asks.bind (.perform rfl) fun failing => .bind (.perform rfl) fun _ => by
        cases failing
        · exact .pure ()
        · exact .throw _
    refine follows_bind.2 (follows_lift.2 ((Task.Asks.handles asks
      (deals_rollback working)).mono ?_))
    rintro _ p ⟨rests, applied⟩
    exact follows_throw.2 ⟨rests, applied⟩

theorem discreet_rentBody (renter : RenterId) (id : ItemId) :
    (terms.rentBody renter id).Asks Action.discreet := by
  refine .bind ((works_lockItem id).mono discreet_of_works) fun found => ?_
  cases found with
  | none => exact .throw _
  | some item =>
      dsimp only
      split
      · refine .bind (.checked (fun _ => rfl) ((works_updateItem _).mono discreet_of_works))
          fun _ => .bind (.perform rfl) fun now => ?_
        refine .bind (.checked (fun _ => rfl) (.perform rfl)) fun rental => ?_
        exact .bind (.checked (fun _ => rfl) (.perform rfl)) fun fee => .pure _
      · exact .throw_bind _ _

theorem discreet_payBody (id : FeeId) (renter : RenterId) :
    (terms.payBody id renter).Asks Action.discreet := by
  refine .bind (.checked (fun _ => rfl) ((works_lockFee id).mono discreet_of_works)) fun found => ?_
  match found with
  | none => exact .throw _
  | some (fee, rental) =>
      dsimp only
      split
      · exact .throw_bind _ _
      split
      · exact .throw_bind _ _
      refine .bind (.perform rfl) fun now => ?_
      split
      · refine .bind ((works_closeRental ..).mono discreet_of_works) fun closed => ?_
        exact .bind ((works_settle ..).mono discreet_of_works) fun _ => .pure _
      · exact .bind ((works_settle ..).mono discreet_of_works) fun _ => .pure _

/-! ## Requests -/

/-- A request that has committed nothing may end with every reply that does not tell of success. -/
theorem ends_of_rests {reply : Reply} (rests : Rests renter? w) (h : reply.succeeds = false) :
    (Course.mk w none).Ends terms line reply where
  custody := rests.1
  success _ applied := by cases applied
  failure _ := h

theorem succeeds_ofRented (e : Error) : (Reply.ofRented (.error e)).succeeds = false := by
  rw [Reply.ofRented, RentStatus.ofError]
  split <;> rfl

theorem succeeds_ofSettlement (e : Error) : (Reply.ofSettlement (.error e)).succeeds = false := by
  rw [Reply.ofSettlement, PayStatus.ofError.eq_def]
  split
  · rfl
  · split <;> rfl

/-- A request that has committed what was prepared for its reply. -/
theorem ends_of_applied {w : Watch} {reply : Reply} (rests : Rests renter? p.watch)
    (applied : p.applied = some w) (prepared : w.PreparedFor terms line reply) :
    p.Ends terms line reply where
  custody := rests.1
  success w' applied' := Option.some.inj (applied.symm.trans applied') ▸ prepared
  failure none := by cases applied.symm.trans none

theorem handles_rent {renter : RenterId} {id : ItemId}
    (request : Command.parse line = .ok (.rent id renter)) :
    (terms.rent renter id).Follows (terms.handling line) (.start (some renter))
      (fun rented p => p.Ends terms line (.ofRented (.ok rented)))
      fun e p => p.Ends terms line (.ofRented (.error e)) := by
  have refused : ∀ e w, Rests (some renter) w →
      (Course.mk w none).Ends terms line (.ofRented (.error e)) :=
    fun e w rests => ends_of_rests rests (succeeds_ofRented e)
  rw [Terms.rent]
  split
  · exact follows_bind.2 (follows_throw.2 (refused _ _ ⟨rfl, rfl⟩))
  split
  · exact follows_bind.2 (follows_throw.2 (refused _ _ ⟨rfl, rfl⟩))
  refine follows_bind.2 ((deals_isKnown terms _ id).handles
    ((works_isKnown id).mono discreet_of_works) ⟨rfl, rfl⟩ (fun known w rests => ?_) refused)
  cases known with
  | false => exact follows_bind.2 (follows_throw.2 (refused _ w rests))
  | true =>
      refine Follows.mono (handles_transaction request (prepares_rentBody terms renter id)
        (discreet_rentBody renter id) rests) ?_ ?_
      · rintro rented p ⟨rests, w, applied, prepared⟩
        exact ends_of_applied rests applied prepared
      · rintro e ⟨w, _⟩ ⟨rests, rfl⟩
        exact refused e w rests

theorem handles_pay {id : FeeId} {renter : RenterId}
    (request : Command.parse line = .ok (.pay id renter)) :
    (terms.pay id renter).Follows (terms.handling line) (.start (some renter))
      (fun settlement p => p.Ends terms line (.ofSettlement (.ok settlement)))
      fun e p => p.Ends terms line (.ofSettlement (.error e)) := by
  have refused : ∀ e w, Rests (some renter) w →
      (Course.mk w none).Ends terms line (.ofSettlement (.error e)) :=
    fun e w rests => ends_of_rests rests (succeeds_ofSettlement e)
  rw [Terms.pay]
  split
  · exact follows_bind.2 (follows_throw.2 (refused _ _ ⟨rfl, rfl⟩))
  refine follows_bind.2 (Follows.mono (handles_transaction request
    (prepares_payBody terms id renter) (discreet_payBody id renter) ⟨rfl, rfl⟩) ?_ ?_)
  · rintro settlement p ⟨rests, w, applied, prepared⟩
    cases settlement.returnedItem with
    | none => exact ends_of_applied rests applied prepared
    | some item =>
        obtain ⟨permits, answers⟩ := follows_perform.1 (deals_announce item p.watch rests)
        refine follows_bind.2 (follows_perform.2 ⟨⟨permits, ?_⟩, ?_⟩)
        · rw [applied]
          rfl
        · rintro _ p' ⟨answer, applied'⟩
          exact ends_of_applied (answers _ _ answer) (applied'.trans applied) prepared
  · rintro e ⟨w, _⟩ ⟨rests, rfl⟩
    exact refused e w rests

/-- A listing commits nothing, and its reply tells of no success at changing rows. -/
theorem handles_listing {x : Operation (List α)} {reply : List α → Reply}
    (quiet : x.Only Action.passes) (rows : ∀ rows, (reply rows).succeeds = false) :
    x.run.Follows (terms.handling line) (.start renter?) fun result p =>
      p.Ends terms line (.ofRows reply result) :=
  follows_run.2 (quiet.deals.handles ((Task.Only.asks quiet).mono discreet_of_passes) ⟨rfl, rfl⟩
    (fun _ _ rests => ends_of_rests rests (rows _)) fun _ _ rests => ends_of_rests rests rfl)

end Operation

namespace Terms

open Operation

theorem handles_answer (terms : Terms) {command : Command}
    (request : Command.parse line = .ok command) :
    (terms.answer command).Follows (terms.handling line) (.start command.renter?) fun reply p =>
      p.Ends terms line reply := by
  cases command with
  | rent item renter => exact Task.follows_bind.2 (follows_run.2 (handles_rent request))
  | pay fee renter => exact Task.follows_bind.2 (follows_run.2 (handles_pay request))
  | listFees renter =>
      exact Task.follows_bind.2 (handles_listing (quiet_listFees terms renter) fun _ => rfl)
  | listRentals renter =>
      exact Task.follows_bind.2 (handles_listing (quiet_listRentals renter) fun _ => rfl)
  | listInvoices renter =>
      exact Task.follows_bind.2 (handles_listing (quiet_listInvoices renter) fun _ => rfl)
  | listFilms => exact Task.follows_bind.2 (handles_listing quiet_listItems fun _ => rfl)

/-- Every request line is handled, on behalf of the renter that it names. -/
theorem handles_answerLine (terms : Terms) (line : List Char) :
    (terms.answerLine line).Follows (terms.handling line) (.start (renterOfLine? line))
      fun reply p => p.Ends terms line reply := by
  rw [answerLine, renterOfLine?]
  cases request : Command.parse line with
  | ok command => exact terms.handles_answer request
  | error e =>
      have rests : Operation.Rests none (.start none) := ⟨rfl, rfl⟩
      exact ends_of_rests rests rfl

end Terms

end RentalDesk
