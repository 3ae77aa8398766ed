import RentalDesk.Proofs.Listed
import RentalDesk.Proofs.Plain.Order
import RentalDesk.Proofs.Plain.Undisturbed

/-!
# The desk refines the plain desk

Requests that come one after another are answered as the plain desk answers them, and leave its
rows and identifiers behind. What writes is followed through its store calls by the rules for
somebody undisturbed, with one case for each refusal of the plain desk; a list is what is shown at
any moment. Payments are followed on either medium; an archive gives a fee back without the sign of
a negative zero.
-/

namespace RentalDesk

open Operation

/-- A request ends with the reply of the plain desk, and the shop shows the desk afterwards. -/
structure AnswersAs (medium : Medium) (answer : PlainDesk × Reply) (now : Instant) (reply : Reply)
    (s : Shop × WriteSet) : Prop where
  reply : reply = answer.2
  rests : Rests medium answer.1 now s

variable {tariff : Tariff} {medium : Medium} {now : Instant} {d : PlainDesk} {s : Shop × WriteSet}

/-! ## Renting -/

theorem ends_isKnown {id : ItemId} {ok : Bool → Shop × WriteSet → Prop}
    {failed : Error → Shop × WriteSet → Prop} (rests : Rests .memory d now s)
    (h : ok (d.tables.items.get? id).isSome s) : (isKnown id).Ends s ok failed := by
  refine follows_bind.2 (follows_lift.2 (follows_run.2 (ends_checked rests.fits ?_)))
  have hlook : s.1.look (.item id) = .ok (d.tables.items.get? id) := by
    rw [Shop.look, rests.fits.store]
    rfl
  exact ends_look hlook h

theorem rentBody_ends {renter : RenterId} {id : ItemId} (rests : Rests .memory d now s)
    (filed : d.tables.Filed) (valid : ¬ (id = 0 ∨ renter = 0)) :
    (transaction ((⟨tariff, .memory⟩ : Terms).rentBody renter id)).Ends s
      (fun rented => AnswersAs .memory (d.rent tariff now id renter) now (.ofRented (.ok rented)))
      fun e => AnswersAs .memory (d.rent tariff now id renter) now (.ofRented (.error e)) := by
  refine ends_transaction rests.fits (follows_bind.2 ?_)
  cases hitem : d.tables.items.get? id with
  | none =>
      have hrent : d.rent tariff now id renter = (d, .rent .itemUnavailable .zero) := by
        simp only [PlainDesk.rent, if_neg valid, hitem]
      refine ends_lockItem rests.fits rfl hitem fun s' fits => follows_throw.2 ⟨_, fits, ?_⟩
      rw [hrent]
      exact fun s'' rests => ⟨rfl, rests⟩
  | some item =>
      obtain rfl := filed.items id item hitem
      refine ends_lockItem rests.fits rfl hitem fun s' fits => ?_
      dsimp only
      split
      · next available =>
          refine follows_bind.2 (ends_checked fits (ends_updateItem fits ?_ fun s' fits => ?_))
          · exact List.mem_cons_self
          refine follows_bind.2 (ends_now fits ?_)
          refine follows_bind.2 (ends_checked fits (ends_insertRental fits fun s' fits => ?_))
          refine follows_bind.2 (ends_checked fits (ends_insertFee fits fun s' fits => ?_))
          refine follows_pure.2 ⟨_, fits, ?_⟩
          simp only [PlainDesk.rent, if_neg valid, hitem, if_pos available]
          exact fun s'' rests => ⟨rfl, rests⟩
      · next unavailable =>
          have hrent : d.rent tariff now item.id renter = (d, .rent .itemUnavailable .zero) := by
            simp only [PlainDesk.rent, if_neg valid, hitem, if_neg unavailable]
          refine follows_throw.2 ⟨_, fits, ?_⟩
          rw [hrent]
          exact fun s'' rests => ⟨rfl, rests⟩

theorem rent_ends {renter : RenterId} {id : ItemId} (rests : Rests .memory d now s)
    (filed : d.tables.Filed) :
    ((⟨tariff, .memory⟩ : Terms).rent renter id).Ends s
      (fun rented => AnswersAs .memory (d.rent tariff now id renter) now (.ofRented (.ok rented)))
      fun e => AnswersAs .memory (d.rent tariff now id renter) now (.ofRented (.error e)) := by
  rw [Terms.rent]
  split
  · next hid =>
      simp only [PlainDesk.rent, hid, true_or, if_true]
      exact follows_bind.2 (follows_throw.2 ⟨rfl, rests⟩)
  next hid =>
  split
  · next hrenter =>
      simp only [PlainDesk.rent, hrenter, or_true, if_true]
      exact follows_bind.2 (follows_throw.2 ⟨rfl, rests⟩)
  next hrenter =>
  have valid : ¬ (id = 0 ∨ renter = 0) := not_or.2 ⟨hid, hrenter⟩
  refine follows_bind.2 (ends_isKnown rests ?_)
  cases hitem : d.tables.items.get? id with
  | none =>
      simp only [PlainDesk.rent, if_neg valid, hitem]
      exact follows_bind.2 (follows_throw.2 ⟨rfl, rests⟩)
  | some item => exact rentBody_ends rests filed valid

/-! ## Paying -/

theorem altersSettlement_unsettled {previous fee : Fee} (h : previous.settlement = none) :
    WriteSet.altersSettlement previous fee = false := by
  simp [WriteSet.altersSettlement, h]

/-- A fee that is not settled yet is settled by an invoice over its amount. -/
theorem settle_ends {p : Position} {fee previous : Fee} {renter : RenterId}
    {ok : InvoiceId → Shop × WriteSet → Prop} {failed : Error → Shop × WriteSet → Prop}
    (fits : p.Fits s) (writable : .fee fee.id ∈ p.rows)
    (unstaged : p.staged.fees.get? fee.id = none)
    (owed : p.desk.tables.fees.get? fee.id = some previous) (unsettled : previous.settlement = none)
    (h : ∀ s', { p with
        desk.next.invoices := ⟨p.desk.next.invoices.next + 1⟩
        staged := p.staged.settle fee ⟨p.desk.next.invoices.next, renter, now, fee.amount⟩ }.Fits
          s' → ok p.desk.next.invoices.next s') :
    (Terms.settle fee renter now).Ends s ok failed := by
  refine follows_bind.2 (ends_checked fits (ends_insertInvoice fits fun s' fits => ?_))
  refine follows_bind.2 (ends_checked fits (ends_updateFee fits writable unstaged ?_ ?_))
  · change Option.any _ (p.desk.tables.fees.get? fee.id) = false
    rw [owed]
    exact altersSettlement_unsettled unsettled
  · exact fun s' fits => follows_pure.2 (h s' fits)

/-- A fee is read after it was locked, and then its rental. -/
theorem ends_lockFee {p : Position} {id : FeeId}
    {ok : Option (Fee × Rental) → Shop × WriteSet → Prop} {failed : Error → Shop × WriteSet → Prop}
    (fits : p.Fits s) (unstaged : p.staged = .empty)
    (unknown : p.desk.tables.fees.get? id = none →
      ∀ s', { p with rows := .fee id :: p.rows }.Fits s' → ok none s')
    (missing : ∀ fee, p.desk.tables.fees.get? id = some fee →
      p.desk.tables.rentals.get? fee.rentalId = none →
      ∀ s', { p with rows := .rental fee.rentalId :: .fee id :: p.rows }.Fits s' →
        failed (.storage (.missingRental fee.id fee.rentalId)) s')
    (found : ∀ fee rental, p.desk.tables.fees.get? id = some fee →
      p.desk.tables.rentals.get? fee.rentalId = some rental →
      ∀ s', { p with rows := .rental fee.rentalId :: .fee id :: p.rows }.Fits s' →
        ok (some (p.medium.fee fee, rental)) s') :
    (Transaction.lockFee id).Ends s ok failed := by
  refine follows_bind.2 (ends_acquire fits fun s' fits => ?_)
  refine follows_bind.2 (ends_readFee fits (by rw [unstaged]; rfl) rfl ?_)
  cases hfee : p.desk.tables.fees.get? id with
  | none => exact follows_bind.2 (follows_ofExcept.2 (unknown hfee s' fits))
  | some fee =>
      specialize missing fee hfee
      specialize found fee
      rw [← p.medium.id_fee fee, ← p.medium.rentalId_fee fee] at missing
      rw [← p.medium.rentalId_fee fee] at found
      refine follows_bind.2 (follows_ofExcept.2 (follows_bind.2 (ends_acquire fits ?_)))
      intro s' fits
      refine follows_bind.2 (ends_readRental fits (by rw [unstaged]; rfl) rfl ?_)
      refine follows_bind.2 (follows_ofExcept.2 ?_)
      cases hrental : p.desk.tables.rentals.get? (p.medium.fee fee).rentalId with
      | none => exact missing hrental s' fits
      | some rental => exact found rental hfee hrental s' fits

theorem accrued_eq_error {base : Decimal} {start stop : Instant} {e : Error}
    (h : tariff.accrued base start stop = .error e) :
    e = .amountOverflow base tariff.accrualRate start stop := by
  rw [Tariff.accrued] at h
  split at h
  · cases h
  · exact (Except.error.inj h).symm

/-- A rental is closed if its item is stored and the amount does not overflow. -/
theorem ends_closeRental {p : Position} {fee : Fee} {rental : Rental}
    {ok : Fee × ItemId → Shop × WriteSet → Prop} {failed : Error → Shop × WriteSet → Prop}
    (fits : p.Fits s) (filed : p.desk.tables.Filed) (unstaged : p.staged = .empty)
    (writable : .rental rental.id ∈ p.rows)
    (missing : p.desk.tables.items.get? rental.itemId = none →
      ∀ s', { p with rows := .item rental.itemId :: p.rows }.Fits s' →
        failed (.storage (.missingItem rental.id rental.itemId)) s')
    (overflows : ∀ item, p.desk.tables.items.get? rental.itemId = some item →
      ∀ e, tariff.accrued fee.amount rental.rentedAt now = .error e →
      ∀ s', { p with rows := .item rental.itemId :: p.rows }.Fits s' → failed e s')
    (closed : ∀ item, p.desk.tables.items.get? rental.itemId = some item →
      ∀ amount, tariff.accrued fee.amount rental.rentedAt now = .ok amount →
      ∀ s', { p with
          staged := Tables.empty.close item rental now
          rows := .item rental.itemId :: p.rows }.Fits s' →
        ok ({ fee with
          amount, reason := closingReason (Tariff.elapsedMinutes rental.rentedAt now) }, item.id)
          s') :
    ((⟨tariff, medium⟩ : Terms).closeRental fee rental now).Ends s ok failed := by
  refine follows_bind.2 (ends_lockItem fits (by rw [unstaged]; rfl) rfl fun s' fits => ?_)
  cases hitem : p.desk.tables.items.get? rental.itemId with
  | none => exact follows_throw.2 (missing hitem s' fits)
  | some item =>
      have hid := filed.items rental.itemId item hitem
      refine follows_bind.2 (follows_ofExcept.2 ?_)
      dsimp only
      cases haccrued : tariff.accrued fee.amount rental.rentedAt now with
      | error e => exact overflows item hitem e haccrued s' fits
      | ok amount =>
          refine follows_bind.2 (ends_checked fits (ends_updateRental fits ?_ fun s' fits => ?_))
          · exact List.mem_cons_of_mem _ writable
          refine follows_bind.2 (ends_checked fits (ends_updateItem fits ?_ fun s' fits => ?_))
          · simp [hid]
          rw [unstaged] at fits
          exact follows_pure.2 (closed item hitem amount haccrued s' fits)

section

variable {id : FeeId} {renter : RenterId}

/-- What the payment of a fee ends with: the reply of the plain desk. -/
abbrev EndsAs (x : Operation Settlement) (answer : PlainDesk × Reply) (medium : Medium)
    (now : Instant) (s : Shop × WriteSet) : Prop :=
  x.Ends s (fun settlement => AnswersAs medium answer now (.ofSettlement (.ok settlement)))
    fun e => AnswersAs medium answer now (.ofSettlement (.error e))

/-- A fee that is stored with its rental is paid as it is read of the medium. -/
theorem payBody_ends_found {fee : Fee} {rental : Rental} (rests : Rests medium d now s)
    (filed : d.tables.Filed) (owed : d.tables.fees.get? id = some fee)
    (lent : d.tables.rentals.get? fee.rentalId = some rental) :
    EndsAs (transaction ((⟨tariff, medium⟩ : Terms).payBody id renter))
      (d.payFound tariff now (medium.fee fee) rental renter) medium now s := by
  obtain rfl := filed.fees id fee owed
  refine ends_transaction rests.fits (follows_bind.2 (ends_checked rests.fits ?_))
  refine ends_lockFee rests.fits rfl (fun unknown => ?_) (fun other hother missing => ?_)
    fun other found hother hfound s' fits => ?_
  · cases unknown.symm.trans owed
  · obtain rfl := Option.some.inj (hother.symm.trans owed)
    cases missing.symm.trans lent
  obtain rfl := Option.some.inj (hother.symm.trans owed)
  obtain rfl := Option.some.inj (hfound.symm.trans lent)
  simp only [Position.idle] at fits ⊢
  by_cases settled : (medium.fee other).settlement.isSome
  · simp only [PlainDesk.payFound, Fee.isSettled, settled, if_true]
    exact follows_bind.2 (follows_throw.2 ⟨_, fits, fun s'' rests => ⟨rfl, rests⟩⟩)
  by_cases foreign : found.renterId ≠ renter
  · simp only [PlainDesk.payFound, Fee.isSettled, settled, if_pos foreign]
    exact follows_bind.2 (follows_throw.2 ⟨_, fits, fun s'' rests => ⟨rfl, rests⟩⟩)
  simp only [PlainDesk.payFound, Fee.isSettled, settled, if_neg foreign]
  have hunsettled : other.settlement = none := by
    rwa [Medium.settlement_fee, Option.not_isSome_iff_eq_none] at settled
  refine follows_bind.2 (ends_now fits ?_)
  cases hback : found.returnedAt with
  | none =>
      simp only [Rental.isOpen, hback, Option.isNone_none, if_true, Option.isSome_none,
        Bool.false_eq_true, if_false, PlainDesk.takeBack]
      refine follows_bind.2 (ends_closeRental fits filed rfl ?_ ?_ ?_ ?_)
      · simp [filed.rentals other.rentalId found lent]
      · intro hitem s' fits
        dsimp only at hitem
        simp only [hitem]
        exact ⟨_, fits, fun s'' rests => ⟨rfl, rests⟩⟩
      · intro item hitem e haccrued s' fits
        dsimp only at hitem haccrued
        simp only [hitem, haccrued]
        obtain rfl := accrued_eq_error haccrued
        exact ⟨_, fits, fun s'' rests => ⟨rfl, rests⟩⟩
      · intro item hitem amount haccrued s' fits
        dsimp only at hitem haccrued
        simp only [hitem, haccrued]
        refine follows_bind.2 (settle_ends fits ?_ rfl ?_ hunsettled fun s' fits => ?_)
        · simp
        · rwa [← medium.id_fee other] at owed
        · exact follows_pure.2 ⟨_, fits, fun s'' rests => ⟨rfl, rests⟩⟩
  | some time =>
      simp only [Rental.isOpen, hback, Option.isNone_some, Option.isSome_some, if_true,
        Bool.false_eq_true, if_false]
      refine follows_bind.2 (settle_ends fits ?_ rfl ?_ hunsettled fun s' fits => ?_)
      · simp
      · rwa [← medium.id_fee other] at owed
      · exact follows_pure.2 ⟨_, fits, fun s'' rests => ⟨rfl, rests⟩⟩

/-- A fee that is not stored is nobody's. -/
theorem payBody_ends_unknown (rests : Rests medium d now s)
    (unknown : d.tables.fees.get? id = none) :
    EndsAs (transaction ((⟨tariff, medium⟩ : Terms).payBody id renter))
      (d, .pay .notOwner .zero) medium now s := by
  refine ends_transaction rests.fits (follows_bind.2 (ends_checked rests.fits ?_))
  refine ends_lockFee rests.fits rfl (fun _ s' fits => ?_) (fun fee hfee => ?_) fun fee _ hfee => ?_
  · exact follows_throw.2 ⟨_, fits, fun s'' rests => ⟨rfl, rests⟩⟩
  · cases hfee.symm.trans unknown
  · cases hfee.symm.trans unknown

/-- A fee whose rental is not stored cannot be paid. -/
theorem payBody_ends_missing {fee : Fee} (rests : Rests medium d now s)
    (owed : d.tables.fees.get? id = some fee)
    (missing : d.tables.rentals.get? fee.rentalId = none) :
    EndsAs (transaction ((⟨tariff, medium⟩ : Terms).payBody id renter))
      (d, .pay .storageError .zero) medium now s := by
  refine ends_transaction rests.fits (follows_bind.2 (ends_checked rests.fits ?_))
  refine ends_lockFee rests.fits rfl (fun unknown => ?_) (fun other hother _ s' fits => ?_)
    fun other _ hother hfound => ?_
  · cases unknown.symm.trans owed
  · exact ⟨_, fits, fun s'' rests => ⟨rfl, rests⟩⟩
  · obtain rfl := Option.some.inj (hother.symm.trans owed)
    cases hfound.symm.trans missing

/-- The announcement of the item that came back changes nothing that the plain desk has. -/
theorem pay_ends_of_body {answer : PlainDesk × Reply} (valid : ¬ (id = 0 ∨ renter = 0))
    (body : EndsAs (transaction ((⟨tariff, medium⟩ : Terms).payBody id renter)) answer medium now
      s) : EndsAs ((⟨tariff, medium⟩ : Terms).pay id renter) answer medium now s := by
  rw [Terms.pay, if_neg valid]
  refine follows_bind.2 (body.mono ?_ fun e s' h => h)
  intro settlement s' answers
  cases hitem : settlement.returnedItem with
  | none => exact answers
  | some item =>
      refine follows_bind.2
        (ends_perform (follows_pure.2 ⟨answers.reply, ?_, answers.rests.writes⟩))
      exact { answers.rests.fits with }

theorem pay_ends_invalid (rests : Rests medium d now s) (invalid : id = 0 ∨ renter = 0) :
    EndsAs ((⟨tariff, medium⟩ : Terms).pay id renter) (d, .pay .notOwner .zero) medium now s := by
  rw [Terms.pay, if_pos invalid]
  exact follows_bind.2 (follows_throw.2 ⟨rfl, rests⟩)

theorem pay_ends (rests : Rests .memory d now s) (filed : d.tables.Filed) :
    EndsAs ((⟨tariff, .memory⟩ : Terms).pay id renter) (d.pay tariff now id renter) .memory now
      s := by
  by_cases invalid : id = 0 ∨ renter = 0
  · rw [PlainDesk.pay, if_pos invalid]
    exact pay_ends_invalid rests invalid
  refine pay_ends_of_body invalid ?_
  rw [PlainDesk.pay, if_neg invalid]
  cases hfee : d.tables.fees.get? id with
  | none => exact payBody_ends_unknown rests hfee
  | some fee =>
      dsimp only
      cases hrental : d.tables.rentals.get? fee.rentalId with
      | none => exact payBody_ends_missing rests hfee hrental
      | some rental => exact payBody_ends_found rests filed hfee hrental

end

/-! ## Listings -/

/-- The lists of the plain desk are what is shown of its rows if no call fails. -/
theorem PlainDesk.answer_listing (l : Listing) (renter : RenterId) :
    d.answer tariff now (l.command renter) =
      (d, l.shown ⟨tariff, .memory⟩ d.tables now [] renter) := by
  have owed : d.tables.owedIn .memory renter = d.tables.owed renter := List.map_id _
  have paid : d.tables.paidIn .memory renter = d.tables.paid renter := List.map_id _
  by_cases hrenter : renter = 0 <;> cases l <;>
    simp [PlainDesk.answer, Listing.command, PlainDesk.listFees, PlainDesk.listRentals,
      PlainDesk.listInvoices, Listing.shown, Listing.reply, Listing.nothing, hrenter, owed, paid]

theorem listItems_ends (rests : Rests .memory d now s) (filed : d.tables.Filed) :
    listItems.run.Follows undisturbed s fun rows s' =>
      AnswersAs .memory (d, .films d.tables.items.values) now (.ofRows .films rows) s' := by
  have hitems : s.1.look .items = .ok d.tables.items.values := by
    rw [Shop.look, rests.fits.store]
    rfl
  refine follows_run.2 (follows_bind.2 (ends_checked rests.fits (ends_look hitems ?_)))
  refine follows_pure.2 ⟨?_, rests⟩
  rw [filed.itemsById_eq]
  rfl

/-! ## Requests -/

namespace Shop

/-- A request that ends as on the plain desk gets its reply, and leaves its rows and identifiers
behind. -/
theorem Quiet.run_answers {shop : Shop} (quiet : shop.Quiet .empty) {task : Task Reply}
    {answer : PlainDesk × Reply}
    (follows : task.Follows undisturbed (shop, .empty) (AnswersAs medium answer now)) :
    ∃ shop', shop.run task = (shop', some answer.2) ∧
      shop'.store = answer.1.tables.keptIn medium ∧ shop'.sequences = answer.1.next ∧
      shop'.Quiet .empty := by
  obtain ⟨shop', writes, reply, hadvance, answers, hquiet⟩ := quiet.advance follows
  obtain rfl : writes = .empty := answers.rests.writes
  obtain rfl := answers.reply
  exact ⟨shop', run_eq hadvance, answers.rests.fits.store, answers.rests.fits.sequences, hquiet⟩

section

variable {shop : Shop} {terms : Terms} {id : FeeId} {renter : RenterId}

/-- Somebody alone in a shop who pays a fee that is stored with its rental. -/
theorem Quiet.run_pay_found (quiet : shop.Quiet .empty)
    (store : shop.store = d.tables.keptIn terms.medium) (sequences : shop.sequences = d.next)
    (filed : d.tables.Filed) {fee : Fee} {rental : Rental} (valid : ¬ (id = 0 ∨ renter = 0))
    (owed : d.tables.fees.get? id = some fee)
    (lent : d.tables.rentals.get? fee.rentalId = some rental) :
    let answer := d.payFound terms.tariff shop.clock (terms.medium.fee fee) rental renter
    ∃ shop', shop.run (terms.answer (.pay id renter)) = (shop', some answer.2) ∧
      shop'.store = answer.1.tables.keptIn terms.medium ∧ shop'.sequences = answer.1.next ∧
      shop'.Quiet .empty := by
  have rests : Rests terms.medium d shop.clock (shop, .empty) :=
    ⟨.idle store sequences quiet.calm, rfl⟩
  exact quiet.run_answers (Task.follows_bind.2 (follows_run.2
    (pay_ends_of_body valid (payBody_ends_found rests filed owed lent))))

/-- Somebody alone in a shop who pays a fee that is not stored. -/
theorem Quiet.run_pay_unknown (quiet : shop.Quiet .empty)
    (store : shop.store = d.tables.keptIn terms.medium) (sequences : shop.sequences = d.next)
    (unknown : id = 0 ∨ renter = 0 ∨ d.tables.fees.get? id = none) :
    (shop.run (terms.answer (.pay id renter))).2 = some (.pay .notOwner .zero) := by
  have rests : Rests terms.medium d shop.clock (shop, .empty) :=
    ⟨.idle store sequences quiet.calm, rfl⟩
  have ends : EndsAs (terms.pay id renter) (d, .pay .notOwner .zero) terms.medium shop.clock
      (shop, .empty) := by
    by_cases invalid : id = 0 ∨ renter = 0
    · exact pay_ends_invalid rests invalid
    · have absent := (or_assoc.2 unknown).resolve_left invalid
      exact pay_ends_of_body invalid (payBody_ends_unknown rests absent)
  have follows : (terms.answer (.pay id renter)).Follows undisturbed (shop, .empty)
      (AnswersAs terms.medium (d, .pay .notOwner .zero) shop.clock) :=
    Task.follows_bind.2 (follows_run.2 ends)
  obtain ⟨shop', hrun, -⟩ := quiet.run_answers follows
  exact congrArg Prod.snd hrun

end

/-- The shop keeps the rows and identifiers of a plain desk, and nobody is at work in it. -/
structure Shows (shop : Shop) (d : PlainDesk) : Prop where
  store : shop.store = .memory d.tables
  sequences : shop.sequences = d.next
  quiet : shop.Quiet .empty

/-- Runs request lines one after another, each at its own time. -/
def attend (terms : Terms) (shop : Shop) : List (Instant × List Char) → Shop × List (Option Reply)
  | [] => (shop, [])
  | (clock, line) :: visits =>
    let (shop, reply) := { shop with clock }.run (terms.answerLine line)
    let (shop, replies) := shop.attend terms visits
    (shop, reply :: replies)

variable {shop : Shop}

/-- A shop that is opened with some rows shows them. -/
theorem shows_opened (t : Tables) (ids : Sequences) (lockWait : Nat) (clock : Instant) :
    (opened (.memory t) ids lockWait clock).Shows ⟨t, ids⟩ where
  store := rfl
  sequences := rfl
  quiet := ⟨rfl, .empty⟩

/-- A request that ends as on the plain desk leaves behind what the plain desk keeps. -/
theorem Shows.run_follows (h : shop.Shows d) {task : Task Reply} {answer : PlainDesk × Reply}
    (follows : Rests .memory d shop.clock (shop, .empty) →
      task.Follows undisturbed (shop, .empty) (AnswersAs .memory answer shop.clock)) :
    (shop.run task).2 = some answer.2 ∧ (shop.run task).1.Shows answer.1 := by
  have rests : Rests .memory d shop.clock (shop, .empty) :=
    ⟨.idle h.store h.sequences h.quiet.calm, rfl⟩
  obtain ⟨shop', hrun, store, sequences, quiet⟩ := h.quiet.run_answers (follows rests)
  rw [hrun]
  exact ⟨rfl, store, sequences, quiet⟩

theorem Shows.run_listing (h : shop.Shows d) (filed : d.tables.Filed) (l : Listing)
    (renter : RenterId) :
    (shop.run ((⟨tariff, .memory⟩ : Terms).answer (l.command renter))).2 =
        some (d.answer tariff shop.clock (l.command renter)).2 ∧
      (shop.run ((⟨tariff, .memory⟩ : Terms).answer (l.command renter))).1.Shows
        (d.answer tariff shop.clock (l.command renter)).1 := by
  rw [PlainDesk.answer_listing, Shop.run_listing h.store filed, h.quiet.calm]
  exact ⟨rfl, h⟩

/-- One request is answered, and leaves behind what the plain desk keeps. -/
theorem Shows.run (h : shop.Shows d) (filed : d.tables.Filed) (tariff : Tariff) (clock : Instant)
    (line : List Char) :
    ({ shop with clock }.run ((⟨tariff, .memory⟩ : Terms).answerLine line)).2 =
        some (d.answerLine tariff clock line).2 ∧
      ({ shop with clock }.run ((⟨tariff, .memory⟩ : Terms).answerLine line)).1.Shows
        (d.answerLine tariff clock line).1 := by
  let atClock : Shop := { shop with clock }
  have shows : atClock.Shows d := ⟨h.store, h.sequences, h.quiet.calm, h.quiet.locks⟩
  rw [Terms.answerLine, PlainDesk.answerLine]
  cases Command.parse line with
  | error e => exact shows.run_follows fun rests => ⟨rfl, rests⟩
  | ok command =>
      cases command with
      | rent item renter =>
          exact shows.run_follows fun rests =>
            Task.follows_bind.2 (follows_run.2 (rent_ends rests filed))
      | pay fee renter =>
          exact shows.run_follows fun rests =>
            Task.follows_bind.2 (follows_run.2 (pay_ends rests filed))
      | listFees renter => exact shows.run_listing filed .fees renter
      | listRentals renter => exact shows.run_listing filed .rentals renter
      | listInvoices renter => exact shows.run_listing filed .invoices renter
      | listFilms =>
          exact shows.run_follows fun rests => Task.follows_bind.2 (listItems_ends rests filed)

/-- The desk refines the plain desk: request lines that come one after another while nobody else is
at work, each at its own time, get the replies of the plain desk, and the shop shows the plain desk
again afterwards. -/
theorem attend_plain (tariff : Tariff) {shop : Shop} {d : PlainDesk} (shows : shop.Shows d)
    (filed : d.tables.Filed) (visits : List (Instant × List Char)) :
    (shop.attend ⟨tariff, .memory⟩ visits).2 = (d.attend tariff visits).2.map some ∧
      (shop.attend ⟨tariff, .memory⟩ visits).1.Shows (d.attend tariff visits).1 := by
  induction visits generalizing shop d with
  | nil => exact ⟨rfl, shows⟩
  | cons visit visits ih =>
      obtain ⟨clock, line⟩ := visit
      obtain ⟨hreply, hshows⟩ := shows.run filed tariff clock line
      obtain ⟨hreplies, hlast⟩ := ih hshows ((PlainDesk.leaves_answerLine line).filed filed)
      refine ⟨?_, hlast⟩
      rw [attend, PlainDesk.attend, List.map_cons, ← hreplies, ← hreply]

/-- One film is rented, asked for by somebody else, listed with what it has come to, and returned
two minutes later. -/
theorem attend_plain_film :
    let shop := opened (.memory (Tables.empty.putItem (.new 3 "Ran"))) .fresh 0 .epoch
    let later : Instant := ⟨120, 0, by decide, by decide, by decide, by decide⟩
    let due : Decimal := ⟨false, 1300, 2, by decide, by decide⟩
    shop.Shows ⟨Tables.empty.putItem (.new 3 "Ran"), .fresh⟩ ∧
      (Tables.empty.putItem (.new 3 "Ran")).Filed ∧
      (shop.attend ⟨.standard, .memory⟩ [(.epoch, "RENT;3;7".toList), (later, "PAY;1;8".toList),
        (later, "LIST_FEES;7".toList), (later, "PAY;1;7".toList)]).2 =
        [some (.rent .ok Tariff.standard.baseFee), some (.pay .notOwner .zero),
          some (.fees [⟨1, 1, 3, due, baseFeeReason, false⟩]), some (.pay .settled due)] := by
  intro shop later due
  have shows : shop.Shows ⟨Tables.empty.putItem (.new 3 "Ran"), .fresh⟩ := shows_opened ..
  have filed : (Tables.empty.putItem (.new 3 "Ran")).Filed :=
    ⟨Table.Filed.empty.insert (Item.new 3 "Ran"), .empty, .empty, .empty⟩
  refine ⟨shows, filed, ?_⟩
  rw [(attend_plain .standard shows filed _).1]
  subst later due
  decide +kernel

end Shop

end RentalDesk
