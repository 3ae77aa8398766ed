import RentalDesk.Proofs.Conduct.Checked

/-!
# The conduct of errands

Registering, renting and paying keep to the conduct of their errands.
-/

namespace RentalDesk

open Operation

variable {tariff : Tariff} {s : Standing}

/-! ## Renting -/

/-- An item that is known to be on the shelf may be lent. -/
theorem prepared_rent {renter : RenterId} {item : Item} (hid : item.id ≠ 0) (hrenter : renter ≠ 0)
    (available : item.available = true) (promise : s.promise = none)
    (known : .item item ∈ s.known) (rental : s.writes.drew .rentals s.diary.ids.rentals.next)
    (fee : s.writes.drew .fees s.diary.ids.fees.next)
    (staged : s.writes.staged = Tables.empty.lend item
      ((s.circumstances tariff).rental renter item.id) (s.circumstances tariff).fee) :
    s.Prepared tariff (.rent renter item.id)
      (.rented (.ok ⟨s.diary.ids.rentals.next, s.diary.ids.fees.next, tariff.baseFee⟩)) := by
  refine ⟨promise, ?_, fun t hfits => ?_⟩
  · intro series hseries
    simp only [Errand.draws, List.mem_cons, List.not_mem_nil, or_false] at hseries
    rcases hseries with rfl | rfl
    · exact rental
    · exact fee
  · have hitem : t.items.get? item.id = some item := Tables.row?_item.1 (hfits.known _ known)
    rw [staged]
    simp only [Circumstances.verdict, Circumstances.rent, if_neg hid, if_neg hrenter, hitem,
      if_pos available]
    rfl

theorem rentBody_conducts {renter : RenterId} {id : ItemId} (h : s.Idle) (hid : id ≠ 0)
    (hrenter : renter ≠ 0) :
    ((⟨tariff, .memory⟩ : Terms).rentBody renter id).Conducts tariff (.rent renter id) s
      fun rented s' => s'.Prepared tariff (.rent renter id) (.rented (.ok rented)) := by
  have hstaged : s.writes.staged = .empty := by rw [h.writes]; rfl
  refine follows_bind.2 (conducts_lockItem h.promise ?_ ?_ fun ticket t hkey hfits => ?_)
  · rw [h.writes]
    rfl
  · rw [hstaged]
    rfl
  cases hitem : t.items.get? id with
  | none =>
      refine follows_throw.2 (.of_verdict h.promise (t := t) List.mem_cons_self ?_)
      simp [Circumstances.verdict, Circumstances.rent, hid, hrenter, hitem, Errand.failed]
  | some item =>
      obtain rfl := hfits.keyed.item_id hitem
      dsimp only
      split
      · next available =>
          refine follows_bind.2 (conducts_checked h.promise (conducts_updateItem ?_ ?_))
          · simp [hkey]
          refine follows_bind.2 (follows_now fun now => ?_)
          refine follows_bind.2 (conducts_checked h.promise
            (conducts_insertRental h.promise ?_ fun rentalId => ?_))
          · simp [h.drawn]
          refine follows_bind.2 (conducts_checked h.promise
            (conducts_insertFee h.promise ?_ fun feeId => ?_))
          · simp [Diary.note, h.drawn]
          refine follows_pure.2 (prepared_rent hid hrenter available h.promise ?_ ?_ ?_ ?_)
          · simp [hkey, Tables.row?_item.2 hitem]
          · simp [WriteSet.drew, WriteSet.insertFee, WriteSet.insertRental, Diary.note]
          · simp [WriteSet.drew, WriteSet.insertFee, Diary.note]
          · simp only [Standing.drew, Standing.stage, Standing.read, Standing.hold,
              Standing.atTime, WriteSet.insertFee, WriteSet.insertRental, WriteSet.withStaged,
              WriteSet.hold, hstaged]
            rfl
      · next unavailable =>
          refine follows_throw.2 (.of_verdict h.promise (t := t) List.mem_cons_self ?_)
          simp [Circumstances.verdict, Circumstances.rent, hid, hrenter, hitem, unavailable,
            Errand.failed]

theorem follows_isKnown {errand : Errand} {id : ItemId} {ok : Bool → Standing → Prop}
    {failed : Error → Standing → Prop} (h : s.Idle) (known : ∀ s' : Standing, s'.Idle → ok true s')
    (unknown : ∀ t, t.items.get? id = none → ok false (s.see t)) :
    (isKnown id).Follows (errand.conduct tariff) s ok failed := by
  refine follows_bind.2 (follows_lift.2 (follows_run.2 (follows_bind.2 (follows_guard ?_ ?_))))
  · refine follows_look fun t _ => ?_
    cases hitem : t.items.get? id with
    | none => exact unknown t hitem
    | some item => exact known _ (h.see t)
  · exact known _ h.hinder

/-- A visit that promises nothing may end with an error that is explained by rows that it has
seen. -/
theorem ends_of_verdict {errand : Errand} {e : Error} (h : s.Idle) {t : Tables} (ht : t ∈ s.seen)
    (hv : (s.circumstances tariff).verdict t errand = (none, errand.failed e)) :
    s.Ends tariff errand (errand.failed e) :=
  (Standing.Refused.of_verdict h.promise ht hv).ends h.writes

theorem rent_follows {renter : RenterId} {id : ItemId} (h : s.Idle) {t : Tables} (ht : t ∈ s.seen) :
    ((⟨tariff, .memory⟩ : Terms).rent renter id).Follows
      ((Errand.rent renter id).conduct tariff) s
      (fun rented s' => s'.Ends tariff (.rent renter id) (.rented (.ok rented)))
      fun e s' => s'.Ends tariff (.rent renter id) (.rented (.error e)) := by
  rw [Terms.rent]
  split
  · next hid =>
      refine follows_bind.2 (follows_throw.2 (ends_of_verdict h ht ?_))
      simp [Circumstances.verdict, Circumstances.rent, hid, Errand.failed]
  next hid =>
  split
  · next hrenter =>
      refine follows_bind.2 (follows_throw.2 (ends_of_verdict h ht ?_))
      simp [Circumstances.verdict, Circumstances.rent, hid, hrenter, Errand.failed]
  next hrenter =>
  refine follows_bind.2 (follows_isKnown h (fun s' h' => ?_) fun t hitem => ?_)
  · refine (follows_transaction h'.writes h'.promise (rentBody_conducts h' hid hrenter)).mono ?_ ?_
    · exact fun rented s'' h'' => .of_promise h''.1 h''.2
    · exact fun e s'' hends => hends
  · refine follows_bind.2 (follows_throw.2 (ends_of_verdict (h.see t) List.mem_cons_self ?_))
    simp [Circumstances.verdict, Circumstances.rent, hid, hrenter, hitem, Errand.failed]

/-! ## Paying -/

section Verdicts

variable {c : Circumstances} {t : Tables} {id : FeeId} {renter : RenterId} {fee : Fee}
  {rental : Rental}

theorem pay_eq (valid : ¬ (id = 0 ∨ renter = 0)) (owed : t.fees.get? id = some fee)
    (lent : t.rentals.get? fee.rentalId = some rental) :
    c.pay t id renter =
      if fee.isSettled then .error (.alreadyPaid id)
      else if rental.renterId ≠ renter then .error (.notOwner id)
      else if rental.isOpen then c.payOpen t fee rental id renter
      else
        .ok (⟨id, (c.invoice renter fee.amount).id, fee.amount, none⟩,
          t.settle fee (c.invoice renter fee.amount)) := by
  simp only [Circumstances.pay, if_neg valid, owed, lent]

theorem pay_of_open (valid : ¬ (id = 0 ∨ renter = 0)) (owed : t.fees.get? id = some fee)
    (lent : t.rentals.get? fee.rentalId = some rental) (unsettled : fee.isSettled = false)
    (owner : rental.renterId = renter) (still : rental.isOpen = true) :
    c.pay t id renter = c.payOpen t fee rental id renter := by
  rw [pay_eq valid owed lent, if_neg (by simp [unsettled]), if_neg (Decidable.not_not.2 owner),
    if_pos still]

theorem pay_of_closed (valid : ¬ (id = 0 ∨ renter = 0)) (owed : t.fees.get? id = some fee)
    (lent : t.rentals.get? fee.rentalId = some rental) (unsettled : fee.isSettled = false)
    (owner : rental.renterId = renter) (back : rental.isOpen = false) :
    c.pay t id renter = .ok (⟨id, (c.invoice renter fee.amount).id, fee.amount, none⟩,
      t.settle fee (c.invoice renter fee.amount)) := by
  rw [pay_eq valid owed lent, if_neg (by simp [unsettled]), if_neg (Decidable.not_not.2 owner),
    if_neg (by simp [back])]

theorem payOpen_eq_ok {item : Item} {amount : Decimal}
    (found : t.items.get? rental.itemId = some item)
    (accrued : c.tariff.accrued fee.amount rental.rentedAt c.now = .ok amount) :
    c.payOpen t fee rental id renter =
      .ok (⟨id, (c.invoice renter amount).id, amount, some item.id⟩,
        (t.close item rental c.now).settle (c.finalFee fee rental amount)
          (c.invoice renter amount)) := by
  simp only [Circumstances.payOpen, found, accrued]

end Verdicts

/-- A visit that has locked and read a fee and its rental, and has not gone on from there. -/
structure Standing.Owes (s : Standing) (t : Tables) (fee : Fee) (rental : Rental) : Prop where
  promise : s.promise = none
  drawn : s.diary.drawn = []
  staged : s.writes.staged = .empty
  holds_fee : s.writes.holds (.fee fee.id) = true
  holds_rental : s.writes.holds (.rental rental.id) = true
  free : ∀ id, s.writes.holds (.item id) = false
  known_fee : .fee fee ∈ s.known
  known_rental : .rental rental ∈ s.known
  rental_id : rental.id = fee.rentalId
  seen : t ∈ s.seen
  owed : t.fees.get? fee.id = some fee
  lent : t.rentals.get? fee.rentalId = some rental

theorem Standing.Owes.atTime {t : Tables} {fee : Fee} {rental : Rental} (h : s.Owes t fee rental)
    (now : Instant) : (s.atTime now).Owes t fee rental :=
  { h with }

theorem conducts_lockFee {errand : Errand} {id : FeeId}
    {ok : Option (Fee × Rental) → Standing → Prop} (h : s.Idle)
    (unknown : ∀ s' t, s'.promise = none → t ∈ s'.seen → t.fees.get? id = none → ok none s')
    (missing : ∀ (s' : Standing) t fee, s'.promise = none → t ∈ s'.seen →
      t.fees.get? fee.id = some fee → t.rentals.get? fee.rentalId = none → id = fee.id →
      s'.Refused tariff errand (.storage (.missingRental fee.id fee.rentalId)))
    (found : ∀ (s' : Standing) t fee rental, s'.Owes t fee rental → id = fee.id →
      ok (some (fee, rental)) s') :
    (Transaction.lockFee id).Conducts tariff errand s ok := by
  have hstaged : s.writes.staged = .empty := by rw [h.writes]; rfl
  have hholds : ∀ key, s.writes.holds key = false := by rw [h.writes]; exact fun _ => rfl
  refine follows_bind.2 (conducts_acquire h.promise (hholds _) fun ticket hkey => ?_)
  refine follows_bind.2 (follows_readFee ?_ fun t hfits => follows_bind.2 (follows_ofExcept.2 ?_))
  · simp [hstaged, WriteSet.hold, Tables.empty]
  cases hfee : t.fees.get? id with
  | none => exact unknown _ t h.promise List.mem_cons_self hfee
  | some fee =>
      obtain rfl := hfits.keyed.fee_id hfee
      refine follows_bind.2 (conducts_acquire h.promise ?_ fun ticket' hkey' => ?_)
      · simp [hholds, hkey]
      refine follows_bind.2 (follows_readRental ?_ fun t' hfits' =>
        follows_bind.2 (follows_ofExcept.2 ?_))
      · simp [hstaged, WriteSet.hold, Tables.empty]
      have hfee' : t'.fees.get? fee.id = some fee := by
        refine Tables.row?_fee.1 (hfits'.known (.fee fee) ?_)
        simp [hkey, Tables.row?_fee.2 hfee]
      cases hrental : t'.rentals.get? fee.rentalId with
      | none => exact missing _ t' fee h.promise List.mem_cons_self hfee' hrental rfl
      | some rental =>
          have hid := hfits'.keyed.rental_id hrental
          refine found _ t' fee rental ⟨h.promise, h.drawn, hstaged, ?_, ?_, ?_, ?_, ?_, hid,
            List.mem_cons_self, hfee', hrental⟩ rfl
          · simp [hkey]
          · simp [hkey', hid]
          · simp [hholds, hkey, hkey']
          · simp [hkey, Tables.row?_fee.2 hfee]
          · simp [hkey', Tables.row?_rental.2 hrental]

theorem conducts_settle {errand : Errand} {known fee : Fee} {renter : RenterId} {now : Instant}
    {ok : InvoiceId → Standing → Prop} (promise : s.promise = none) (drawn : s.diary.drawn = [])
    (holds : s.writes.holds (.fee fee.id) = true)
    (unstaged : s.writes.staged.fees.get? fee.id = none)
    (hknown : .fee known ∈ s.known) (hid : known.id = fee.id) (unsettled : known.settlement = none)
    (settled : ∀ id, ok id
      ((s.drew (s.writes.insertInvoice ⟨id, renter, now, fee.amount⟩)
        (.did (.insertInvoice ⟨renter, now, fee.amount⟩) ⟨id, renter, now, fee.amount⟩)).stage
          (s.writes.staged.settle fee ⟨id, renter, now, fee.amount⟩))) :
    (Terms.settle fee renter now).Conducts tariff errand s ok := by
  refine follows_bind.2 (conducts_checked promise
    (conducts_insertInvoice promise ?_ fun id => ?_))
  · simp [drawn]
  refine follows_bind.2 (conducts_checked promise (conducts_updateFee holds unstaged ?_ ?_))
  · intro t hfits
    have hfee : t.fees.get? fee.id = some known := hid ▸ Tables.row?_fee.1 (hfits.known _ hknown)
    simp [hfee, WriteSet.altersSettlement, unsettled]
  · exact settled id

/-- What a visit knows of the fee that it pays. -/
structure Standing.Charges (s : Standing) (renter : RenterId) (fee : Fee) (rental : Rental) :
    Prop where
  valid : ¬ (fee.id = 0 ∨ renter = 0)
  unsettled : fee.isSettled = false
  owner : rental.renterId = renter
  rental_id : rental.id = fee.rentalId
  known_fee : .fee fee ∈ s.known
  known_rental : .rental rental ∈ s.known

theorem Standing.Charges.owed {renter : RenterId} {fee : Fee} {rental : Rental} {t : Tables}
    (h : s.Charges renter fee rental) (hfits : s.Fits t) : t.fees.get? fee.id = some fee :=
  Tables.row?_fee.1 (hfits.known _ h.known_fee)

theorem Standing.Charges.lent {renter : RenterId} {fee : Fee} {rental : Rental} {t : Tables}
    (h : s.Charges renter fee rental) (hfits : s.Fits t) :
    t.rentals.get? fee.rentalId = some rental :=
  h.rental_id ▸ Tables.row?_rental.1 (hfits.known _ h.known_rental)

theorem Standing.Charges.mono {renter : RenterId} {fee : Fee} {rental : Rental}
    (h : s.Charges renter fee rental) (s' : Standing) (known : ∀ row ∈ s.known, row ∈ s'.known) :
    s'.Charges renter fee rental :=
  { h with
    known_fee := known _ h.known_fee
    known_rental := known _ h.known_rental }

/-- If the rental is open and the item known, then the fee may be settled and the item put back on
the shelf. -/
theorem prepared_return {renter : RenterId} {fee : Fee} {rental : Rental} {item : Item}
    {amount : Decimal} (h : s.Charges renter fee rental) (still : rental.isOpen = true)
    (item_id : item.id = rental.itemId)
    (accrued : tariff.accrued fee.amount rental.rentedAt s.diary.now = .ok amount)
    (promise : s.promise = none) (known_item : .item item ∈ s.known)
    (invoice : s.writes.drew .invoices s.diary.ids.invoices.next)
    (staged : s.writes.staged = (Tables.empty.close item rental s.diary.now).settle
      ((s.circumstances tariff).finalFee fee rental amount)
      ((s.circumstances tariff).invoice renter amount)) :
    s.Prepared tariff (.pay fee.id renter)
      (.settled (.ok ⟨fee.id, s.diary.ids.invoices.next, amount, some item.id⟩)) := by
  refine ⟨promise, ?_, fun t hfits => ?_⟩
  · intro series hseries
    obtain rfl := List.mem_singleton.1 hseries
    exact invoice
  · have hitem : t.items.get? rental.itemId = some item :=
      item_id ▸ Tables.row?_item.1 (hfits.known _ known_item)
    rw [staged, Circumstances.verdict,
      pay_of_open h.valid (h.owed hfits) (h.lent hfits) h.unsettled h.owner still,
      payOpen_eq_ok (c := s.circumstances tariff) hitem accrued]
    rfl

/-- If the rental is closed, then the fee may be settled. -/
theorem prepared_paid {renter : RenterId} {fee : Fee} {rental : Rental}
    (h : s.Charges renter fee rental) (back : rental.isOpen = false) (promise : s.promise = none)
    (invoice : s.writes.drew .invoices s.diary.ids.invoices.next)
    (staged : s.writes.staged = Tables.empty.settle fee
      ((s.circumstances tariff).invoice renter fee.amount)) :
    s.Prepared tariff (.pay fee.id renter)
      (.settled (.ok ⟨fee.id, s.diary.ids.invoices.next, fee.amount, none⟩)) := by
  refine ⟨promise, ?_, fun t hfits => ?_⟩
  · intro series hseries
    obtain rfl := List.mem_singleton.1 hseries
    exact invoice
  · rw [staged, Circumstances.verdict,
      pay_of_closed h.valid (h.owed hfits) (h.lent hfits) h.unsettled h.owner back]
    rfl

theorem closeRental_conducts {renter : RenterId} {fee : Fee} {rental : Rental} {now : Instant}
    {ok : Fee × ItemId → Standing → Prop} (h : s.Charges renter fee rental)
    (hnow : s.diary.now = now) (still : rental.isOpen = true) (promise : s.promise = none)
    (unstaged : s.writes.staged = .empty) (free : ∀ id, s.writes.holds (.item id) = false)
    (holds : s.writes.holds (.rental rental.id) = true)
    (closed : ∀ ticket t item amount, ticket.key = .item rental.itemId →
      t.items.get? rental.itemId = some item → item.id = rental.itemId →
      tariff.accrued fee.amount rental.rentedAt now = .ok amount →
      ok ((s.circumstances tariff).finalFee fee rental amount, item.id)
        (((s.hold ticket).read t (.item rental.itemId)).stage
          (s.writes.staged.close item rental now))) :
    ((⟨tariff, .memory⟩ : Terms).closeRental fee rental now).Conducts tariff
      (.pay fee.id renter) s ok := by
  subst hnow
  refine follows_bind.2 (conducts_lockItem promise (free _) ?_ fun ticket t hkey hfits => ?_)
  · rw [unstaged]
    rfl
  have hpay : (s.circumstances tariff).pay t fee.id renter =
      (s.circumstances tariff).payOpen t fee rental fee.id renter :=
    pay_of_open h.valid (h.owed hfits) (h.lent hfits) h.unsettled h.owner still
  cases hitem : t.items.get? rental.itemId with
  | none =>
      refine follows_throw.2 (.of_verdict promise (t := t) List.mem_cons_self ?_)
      change (s.circumstances tariff).verdict t (.pay fee.id renter) = _
      rw [Circumstances.verdict, hpay]
      simp only [Circumstances.payOpen, hitem]
      rfl
  | some item =>
      have hid := hfits.keyed.item_id hitem
      refine follows_bind.2 (follows_ofExcept.2 ?_)
      cases haccrued : tariff.accrued fee.amount rental.rentedAt s.diary.now with
      | error e =>
          have haccrued' : (s.circumstances tariff).tariff.accrued fee.amount rental.rentedAt
              (s.circumstances tariff).now = .error e := haccrued
          refine .of_verdict promise (t := t) List.mem_cons_self ?_
          change (s.circumstances tariff).verdict t (.pay fee.id renter) = _
          rw [Circumstances.verdict, hpay]
          simp only [Circumstances.payOpen, hitem, haccrued']
          rfl
      | ok amount =>
          refine follows_bind.2 (conducts_checked promise (conducts_updateRental ?_ ?_))
          · simp [holds]
          refine follows_bind.2 (conducts_checked promise (conducts_updateItem ?_ ?_))
          · simp [hkey, hid]
          exact closed ticket t item amount hkey hitem hid haccrued

/-- Where the rental is open, the item comes back and the fee is settled as it has accrued. -/
theorem settleOpen_conducts {renter : RenterId} {fee : Fee} {rental : Rental} {t : Tables}
    {now : Instant} (owes : s.Owes t fee rental) (charges : s.Charges renter fee rental)
    (hnow : s.diary.now = now) (unsettled : fee.settlement = none)
    (still : rental.isOpen = true) :
    (do
      let (charged, item) ← (⟨tariff, .memory⟩ : Terms).closeRental fee rental now
      let invoice ← Terms.settle charged renter now
      return ⟨fee.id, invoice, charged.amount, some item⟩ : Operation Settlement).Conducts tariff
      (.pay fee.id renter) s fun settlement s' =>
        s'.Prepared tariff (.pay fee.id renter) (.settled (.ok settlement)) := by
  subst hnow
  refine follows_bind.2 (closeRental_conducts charges rfl still owes.promise owes.staged owes.free
    owes.holds_rental ?_)
  intro ticket t' item amount hkey hitem hid haccrued
  have known : ∀ row ∈ s.known, row ∈ (s.hold ticket).learn t' (.item rental.itemId) :=
    fun row hrow => Standing.mem_learn.2 (.inr hrow)
  refine follows_bind.2 (conducts_settle owes.promise owes.drawn ?_ ?_
    (known _ owes.known_fee) rfl unsettled fun invoice => ?_)
  · simp [Circumstances.finalFee, owes.holds_fee]
  · rw [owes.staged]
    rfl
  refine follows_pure.2 (prepared_return (charges.mono _ known) still hid haccrued owes.promise
    ?_ ?_ ?_)
  · rw [← hid] at hkey hitem ⊢
    exact Standing.mem_learn.2 (.inl ⟨by simp [hkey], Tables.row?_item.2 hitem⟩)
  · simp [WriteSet.drew, WriteSet.withStaged, Tables.settle, Tables.putInvoice, Tables.putFee,
      Diary.note]
  · change (s.writes.staged.close item rental _).settle _ _ = _
    rw [owes.staged]
    rfl

/-- Where the rental is closed, the fee is settled as it is. -/
theorem settleClosed_conducts {renter : RenterId} {fee : Fee} {rental : Rental} {t : Tables}
    {now : Instant} (owes : s.Owes t fee rental) (charges : s.Charges renter fee rental)
    (hnow : s.diary.now = now) (unsettled : fee.settlement = none)
    (back : rental.isOpen = false) :
    (do
      let invoice ← Terms.settle fee renter now
      return ⟨fee.id, invoice, fee.amount, none⟩ : Operation Settlement).Conducts tariff
      (.pay fee.id renter) s fun settlement s' =>
        s'.Prepared tariff (.pay fee.id renter) (.settled (.ok settlement)) := by
  subst hnow
  refine follows_bind.2 (conducts_settle owes.promise owes.drawn owes.holds_fee ?_
    owes.known_fee rfl unsettled fun invoice => ?_)
  · rw [owes.staged]
    rfl
  refine follows_pure.2 (prepared_paid (charges.mono _ fun _ hrow => hrow) back owes.promise ?_ ?_)
  · simp [WriteSet.drew, WriteSet.withStaged, Tables.settle, Tables.putInvoice, Tables.putFee,
      Diary.note]
  · change s.writes.staged.settle fee _ = _
    rw [owes.staged]
    rfl

theorem payBody_conducts {renter : RenterId} {id : FeeId} (h : s.Idle)
    (valid : ¬ (id = 0 ∨ renter = 0)) :
    ((⟨tariff, .memory⟩ : Terms).payBody id renter).Conducts tariff (.pay id renter) s
      fun settlement s' => s'.Prepared tariff (.pay id renter) (.settled (.ok settlement)) := by
  refine follows_bind.2 (conducts_checked h.promise (conducts_lockFee h ?_ ?_ ?_))
  · intro s' t hpromise hseen hfee
    refine follows_throw.2 (.of_verdict hpromise hseen ?_)
    simp only [Circumstances.verdict, Circumstances.pay, if_neg valid, hfee]
    rfl
  · rintro s' t fee hpromise hseen hfee hrental rfl
    refine .of_verdict hpromise hseen ?_
    simp only [Circumstances.verdict, Circumstances.pay, if_neg valid, hfee, hrental]
    rfl
  rintro s' t fee rental owes rfl
  dsimp only
  split
  · next settled =>
      refine follows_bind.2 (follows_throw.2 (.of_verdict owes.promise owes.seen ?_))
      rw [Circumstances.verdict, pay_eq valid owes.owed owes.lent, if_pos settled]
      rfl
  next unsettled =>
  split
  · next foreign =>
      refine follows_bind.2 (follows_throw.2 (.of_verdict owes.promise owes.seen ?_))
      rw [Circumstances.verdict, pay_eq valid owes.owed owes.lent, if_neg unsettled,
        if_pos foreign]
      rfl
  next owner =>
  have hunsettled := Bool.eq_false_iff.2 unsettled
  have hsettlement : fee.settlement = none :=
    Option.isNone_iff_eq_none.1 (Option.isSome_eq_false_iff.1 hunsettled)
  refine follows_bind.2 (follows_now fun now => ?_)
  have charges : (s'.atTime now).Charges renter fee rental :=
    ⟨valid, hunsettled, Decidable.not_not.1 owner, owes.rental_id, owes.known_fee,
      owes.known_rental⟩
  split
  · next still => exact settleOpen_conducts (owes.atTime now) charges rfl hsettlement still
  · next back =>
      exact settleClosed_conducts (owes.atTime now) charges rfl hsettlement
        (Bool.eq_false_iff.2 back)

theorem pay_follows {renter : RenterId} {id : FeeId} (h : s.Idle) {t : Tables} (ht : t ∈ s.seen) :
    ((⟨tariff, .memory⟩ : Terms).pay id renter).Follows ((Errand.pay id renter).conduct tariff) s
      (fun settlement s' => s'.Ends tariff (.pay id renter) (.settled (.ok settlement)))
      fun e s' => s'.Ends tariff (.pay id renter) (.settled (.error e)) := by
  rw [Terms.pay]
  split
  · next invalid =>
      refine follows_bind.2 (follows_throw.2 (ends_of_verdict h ht ?_))
      simp only [Circumstances.verdict, Circumstances.pay, if_pos invalid]
      rfl
  next valid =>
  refine follows_bind.2 ((follows_transaction h.writes h.promise (payBody_conducts h valid)).mono
    ?_ fun e s' hends => hends)
  rintro settlement s' ⟨hwrites, hpromise⟩
  cases settlement.returnedItem with
  | none => exact .of_promise hwrites hpromise
  | some item =>
      refine follows_bind.2 (follows_action (.announce item) trivial ?_)
      exact fun _ _ _ _ _ => .of_promise hwrites hpromise

/-! ## Registering -/

theorem register_follows {id : ItemId} {title : String} (h : s.Idle) :
    ((⟨tariff, .memory⟩ : Terms).register (.new id title)).Follows
      ((Errand.register id title).conduct tariff) s
      (fun result s' => s'.Ends tariff (.register id title) (.registered (.ok result)))
      fun e s' => s'.Ends tariff (.register id title) (.registered (.error e)) := by
  refine follows_bind.2 (follows_guard ?_ ?_)
  · refine follows_bind.2 (follows_action (.registerItem (.new id title))
      ⟨h.promise, id, title, rfl, rfl⟩ fun shop t hstore _ _ => ?_)
    rw [Standing.after]
    cases hitem : t.items.get? id with
    | none =>
        rw [Shop.perform_registerItem_new hstore hitem]
        refine .of_promise h.writes ?_
        simp [Deed.commits, Circumstances.verdict, Table.contains, hitem]
    | some row =>
        rw [Shop.perform_registerItem_known hstore hitem]
        refine ⟨h.writes, fun p hp => ?_, fun _ => .inl ⟨t, List.mem_cons_self, ?_⟩⟩
        · cases h.promise.symm.trans hp
        · simp [Circumstances.verdict, Table.contains, hitem]
  · exact (Standing.Refused.of_hindrance h.promise rfl).ends h.writes

theorem task_follows (errand : Errand) (h : s.Idle) {t : Tables} (ht : t ∈ s.seen) :
    (errand.task ⟨tariff, .memory⟩).Follows (errand.conduct tariff) s
      fun o s' => s'.Ends tariff errand o := by
  cases errand with
  | register id title =>
      exact Task.follows_bind.2 (follows_run.2 (register_follows h))
  | rent renter id => exact Task.follows_bind.2 (follows_run.2 (rent_follows h ht))
  | pay id renter => exact Task.follows_bind.2 (follows_run.2 (pay_follows h ht))

end RentalDesk
