import RentalDesk.Proofs.Amounts
import RentalDesk.Proofs.Dealing.Reached
import RentalDesk.Proofs.Listed
import RentalDesk.Proofs.Plain.Refinement

/-!
# What is quoted is charged

A renter who asks for the fees is shown what an open rental has come to at that time; nothing is
locked for that, and nothing is written. A payment computes the amount anew under locks and writes
it on the fee and on an invoice. At the same time it is the same amount. From then on the fee and
the invoice are final, so the renter is shown both as they were written, on either medium: an amount
that is charged has no sign, so an archive gives it back as it is.
-/

namespace RentalDesk

/-! ## Lists of fees and invoices -/

theorem mem_of_mapM {α β : Type} {f : α → Option β} {as : List α} {bs : List β}
    (h : as.mapM f = some bs) {b : β} : b ∈ bs ↔ ∃ a ∈ as, f a = some b := by
  rw [mapM_eq_some_iff] at h
  induction h with
  | nil => simp
  | cons hab _ ih => simp [ih, hab, eq_comm]

namespace Listing

section

variable (terms : Terms) (t : Tables) (now : Instant) (failing : List StoreCall)
  {renter : RenterId}

/-- A list of fees shows every fee of the renter as it is viewed, and nothing else. -/
theorem shown_fees (valid : renter ≠ 0) :
    fees.shown terms t now failing renter = .listFailed ∨
      ∃ rows, fees.shown terms t now failing renter = .fees rows ∧
        ∀ row, row ∈ rows ↔ ∃ fee ∈ t.owedIn terms.medium renter,
          PlainDesk.view? terms.tariff now fee.1 fee.2 = some row := by
  rw [shown, if_neg valid]
  split
  · exact .inl rfl
  · rw [reply]
    cases hrows : (t.owedIn terms.medium renter).mapM fun row =>
        PlainDesk.view? terms.tariff now row.1 row.2 with
    | none => exact .inl rfl
    | some rows => exact .inr ⟨rows, rfl, fun row => mem_of_mapM hrows⟩

theorem shown_invoices (valid : renter ≠ 0) :
    invoices.shown terms t now failing renter = .listFailed ∨
      invoices.shown terms t now failing renter = .invoices (t.paidIn terms.medium renter) := by
  rw [shown, if_neg valid]
  split
  · exact .inl rfl
  · exact .inr rfl

end

/-- Whatever is shown of a fee is the view of a fee of the renter. -/
theorem mem_shown_fees {terms : Terms} {t : Tables} {now : Instant} {failing : List StoreCall}
    {renter : RenterId} (filed : t.Filed) (unsigned : t.Unsigned) {rows : List FeeView}
    {row : FeeView} (shows : fees.shown terms t now failing renter = .fees rows)
    (mem : row ∈ rows) : ∃ fee rental, t.fees.get? fee.id = some fee ∧
      t.rentals.get? fee.rentalId = some rental ∧ rental.renterId = renter ∧ renter ≠ 0 ∧
      PlainDesk.view? terms.tariff now fee rental = some row := by
  have valid : renter ≠ 0 := by
    rintro rfl
    cases shows
    cases mem
  rcases shown_fees terms t now failing valid with failed | ⟨rows', shows', members⟩
  · cases failed.symm.trans shows
  obtain rfl := Reply.fees.inj (shows'.symm.trans shows)
  obtain ⟨⟨fee, rental⟩, owed, view⟩ := (members row).1 mem
  obtain ⟨hfee, hrental, owner⟩ := (Tables.mem_owedIn filed).1 owed
  rw [Tables.fee?_keptIn, Except.ok.injEq, Option.map_eq_some_iff] at hfee
  rw [Tables.rental?_keptIn, Except.ok.injEq] at hrental
  obtain ⟨found, hfound, hread⟩ := hfee
  rw [terms.medium.fee_eq (unsigned _ found hfound)] at hread
  obtain rfl : found = fee := hread
  exact ⟨found, rental, hfound, hrental, owner, valid, view⟩

end Listing

/-! ## Settling at the quoted amount -/

theorem fields_of_view? {tariff : Tariff} {now : Instant} {fee : Fee} {rental : Rental}
    {row : FeeView} (quoted : PlainDesk.view? tariff now fee rental = some row) :
    row = ⟨fee.id, rental.id, rental.itemId, row.amount, fee.reason, fee.settlement.isSome⟩ := by
  obtain ⟨amount, -, rfl⟩ := Option.map_eq_some_iff.1 quoted
  rfl

theorem unsigned_of_view? {tariff : Tariff} (accepted : tariff.Accepted) {now : Instant}
    {fee : Fee} (unsigned : fee.amount.Unsigned) {rental : Rental} {row : FeeView}
    (quoted : PlainDesk.view? tariff now fee rental = some row) : row.amount.Unsigned := by
  obtain ⟨amount, hamount, rfl⟩ := Option.map_eq_some_iff.1 quoted
  split at hamount
  · cases haccrued : tariff.accrued fee.amount rental.rentedAt now with
    | error e =>
        rw [haccrued] at hamount
        cases hamount
    | ok accrued =>
        rw [haccrued] at hamount
        obtain rfl := Option.some.inj hamount
        exact Tariff.unsigned_accrued accepted.unsigned.2 unsigned haccrued
  · obtain rfl := Option.some.inj hamount
    exact unsigned

/-- The reason on the fee of a rental that is paid now. -/
def Rental.reasonAt (rental : Rental) (now : Instant) (reason : String) : String :=
  if rental.isOpen then closingReason (Tariff.elapsedMinutes rental.rentedAt now) else reason

/-- The rental is closed in the rows, or they are as before. -/
def Tables.Clears (t : Tables) (rental : Rental) (now : Instant) (t' : Tables) : Prop :=
  t' = t ∨ ∃ item, t.items.get? rental.itemId = some item ∧ t' = t.close item rental now

namespace Tables.Clears

variable {t t' : Tables} {rental : Rental} {now : Instant}

theorem fees (h : t.Clears rental now t') : t'.fees = t.fees := by
  rcases h with rfl | ⟨item, -, rfl⟩ <;> rfl

theorem invoices (h : t.Clears rental now t') : t'.invoices = t.invoices := by
  rcases h with rfl | ⟨item, -, rfl⟩ <;> rfl

theorem filed (h : t.Clears rental now t') (filed : t.Filed) : t'.Filed := by
  rcases h with rfl | ⟨item, -, rfl⟩
  · exact filed
  · exact filed.close item rental now

theorem keyed (h : t.Clears rental now t') (keyed : t.Keyed) : t'.Keyed := by
  rcases h with rfl | ⟨item, -, rfl⟩
  · exact keyed
  · exact (keyed.putRental _).putItem _

theorem uses (h : t.Clears rental now t') (lent : t.rentals.get? rental.id = some rental)
    {s : Series} {id : UInt64} (hid : t'.uses s id) : t.uses s id := by
  rcases h with rfl | ⟨item, -, rfl⟩
  · exact hid
  · simp only [close, uses_putItem, uses_putRental, Bool.or_eq_true, decide_eq_true_eq] at hid
    rcases hid with ⟨rfl, rfl⟩ | hid
    · exact Table.contains_of_get? lent
    · exact hid

/-- The rental is the same one still. -/
theorem lent (h : t.Clears rental now t') {key : RentalId} (of : rental.id = key)
    (still : t.rentals.get? rental.id = some rental) :
    ∃ row, t'.rentals.get? key = some row ∧ row.id = rental.id ∧ row.itemId = rental.itemId ∧
      row.renterId = rental.renterId := by
  subst of
  rcases h with rfl | ⟨item, -, rfl⟩
  · exact ⟨rental, still, rfl, rfl, rfl⟩
  · refine ⟨{ rental with returnedAt := some now }, ?_, rfl, rfl, rfl⟩
    rw [rentals_close, Table.get?_insert, if_pos rfl]

end Tables.Clears

/-- Somebody who pays his fee pays what is shown of it at this time. -/
theorem PlainDesk.payFound_quoted {d : PlainDesk} {tariff : Tariff} {now : Instant} {fee : Fee}
    {rental : Rental} {row : FeeView} (shelved : d.tables.items.contains rental.itemId)
    (unsettled : fee.settlement = none) (quoted : view? tariff now fee rental = some row) :
    ∃ t, d.tables.Clears rental now t ∧
      d.payFound tariff now fee rental rental.renterId = d.settle now t
        { fee with amount := row.amount, reason := rental.reasonAt now row.reason }
        rental.renterId := by
  obtain ⟨amount, hamount, rfl⟩ := Option.map_eq_some_iff.1 quoted
  have unpaid : ¬ fee.settlement.isSome = true := by rw [unsettled]; exact Bool.false_ne_true
  rw [payFound, if_neg unpaid, if_neg (not_not.2 rfl)]
  cases back : rental.returnedAt with
  | some time =>
      rw [back, if_neg fun h => Option.some_ne_none time h.1] at hamount
      obtain rfl := Option.some.inj hamount
      refine ⟨d.tables, .inl rfl, ?_⟩
      simp [Rental.reasonAt, Rental.isOpen, back]
  | none =>
      rw [back, unsettled, if_pos ⟨rfl, rfl⟩] at hamount
      obtain ⟨item, found⟩ := Option.isSome_iff_exists.1 shelved
      cases haccrued : tariff.accrued fee.amount rental.rentedAt now with
      | error e =>
          rw [haccrued] at hamount
          cases hamount
      | ok accrued =>
          rw [haccrued] at hamount
          obtain rfl := Option.some.inj hamount
          refine ⟨_, .inr ⟨item, found, rfl⟩, ?_⟩
          simp only [Option.isSome_none, Bool.false_eq_true, if_false, takeBack_of_found found,
            haccrued, Rental.reasonAt, Rental.isOpen, back, Option.isNone_none, if_true]

/-- In a quiet shop somebody pays a fee of his, and pays what is shown of it at this time. -/
theorem Shop.Quiet.run_pay_quoted {shop : Shop} (quiet : shop.Quiet .empty) {terms : Terms}
    {d : PlainDesk} (store : shop.store = d.tables.keptIn terms.medium)
    (sequences : shop.sequences = d.next) (filed : d.tables.Filed) (intact : d.tables.Intact)
    {fee : Fee} {rental : Rental} {row : FeeView} (valid : ¬ (fee.id = 0 ∨ rental.renterId = 0))
    (owed : d.tables.fees.get? fee.id = some fee) (unsigned : fee.amount.Unsigned)
    (lent : d.tables.rentals.get? fee.rentalId = some rental) (unsettled : fee.settlement = none)
    (quoted : PlainDesk.view? terms.tariff shop.clock fee rental = some row) :
    ∃ t shop', d.tables.Clears rental shop.clock t ∧
      shop.run (terms.answer (.pay fee.id rental.renterId)) =
        (shop', some (.pay .settled row.amount)) ∧
      shop'.store = (t.settle
        { fee with amount := row.amount, reason := rental.reasonAt shop.clock row.reason }
        ⟨d.next.invoices.next, rental.renterId, shop.clock, row.amount⟩).keptIn terms.medium ∧
      shop'.sequences = { d.next with invoices := ⟨d.next.invoices.next + 1⟩ } ∧
      shop'.Quiet .empty := by
  obtain ⟨t, clears, pays⟩ :=
    PlainDesk.payFound_quoted (intact.shelved _ _ lent) unsettled quoted
  obtain ⟨shop', hrun, store', sequences', quiet'⟩ :=
    quiet.run_pay_found store sequences filed valid owed lent
  rw [terms.medium.fee_eq unsigned, pays] at hrun store' sequences'
  exact ⟨t, shop', clears, hrun, store', sequences', quiet'⟩

/-! ## Listed ever after -/

/-- Whatever time it is and whatever calls fail, a renter who asks for his lists is shown the row
and no other one of this fee, and is shown the invoice, unless a list fails. -/
structure Shop.Records (shop : Shop) (terms : Terms) (renter : RenterId) (row : FeeView)
    (invoice : Invoice) : Prop where
  fees : ∀ line clock failing, Command.parse line = .ok (.listFees renter) →
    shop.replyTo terms clock failing line = some .listFailed ∨
      ∃ rows, shop.replyTo terms clock failing line = some (.fees rows) ∧
        ∀ other, other ∈ rows ∧ other.id = row.id ↔ other = row
  invoices : ∀ line clock failing, Command.parse line = .ok (.listInvoices renter) →
    shop.replyTo terms clock failing line = some .listFailed ∨
      ∃ rows, shop.replyTo terms clock failing line = some (.invoices rows) ∧ invoice ∈ rows

/-- The store holds the fee and the invoice, and the fee is of a rental that is about the same as
the given one. -/
structure Store.Holds (s : Store) (fee : Fee) (rental : Rental) (invoice : Invoice) : Prop where
  owed : s.fee? fee.id = .ok (some fee)
  lent : ∃ row, s.rental? fee.rentalId = .ok (some row) ∧ row.id = rental.id ∧
    row.itemId = rental.itemId ∧ row.renterId = rental.renterId
  issued : ∃ rows, s.invoices = .ok rows ∧ invoice ∈ rows

/-- The row of a fee that is paid. -/
def Fee.paidView (fee : Fee) (rental : Rental) : FeeView :=
  ⟨fee.id, rental.id, rental.itemId, fee.amount, fee.reason, true⟩

theorem view?_of_settled {fee : Fee} (settled : fee.isSettled = true) (tariff : Tariff)
    (now : Instant) (rental : Rental) :
    PlainDesk.view? tariff now fee rental = some (fee.paidView rental) := by
  have hsettled : fee.settlement.isSome = true := settled
  have final : ¬ (rental.returnedAt = none ∧ fee.settlement = none) := by
    rintro ⟨-, unsettled⟩
    rw [unsettled] at hsettled
    cases hsettled
  rw [PlainDesk.view?, if_neg final, hsettled]
  rfl

/-- What is settled is listed as it was settled. -/
theorem Store.Holds.records {terms : Terms} {shop : Shop} {t : Tables} {fee : Fee}
    {rental : Rental} {invoice : Invoice} (h : shop.store.Holds fee rental invoice)
    (settled : fee.isSettled = true) (payer : invoice.renterId = rental.renterId)
    (valid : rental.renterId ≠ 0) (store : shop.store = t.keptIn terms.medium) (filed : t.Filed) :
    shop.Records terms rental.renterId (fee.paidView rental) invoice := by
  obtain ⟨owed, ⟨row, lent, hid, hitem, owner⟩, issued⟩ := h
  rw [store] at owed lent issued
  have hview : fee.paidView row = fee.paidView rental := by
    rw [Fee.paidView, hid, hitem, Fee.paidView]
  constructor
  case fees =>
    intro line clock failing asks
    rw [Shop.replyTo_listing store filed clock failing (l := .fees) asks]
    rcases Listing.shown_fees terms t clock failing valid with failed | ⟨rows, shows, members⟩
    · exact .inl (congrArg some failed)
    refine .inr ⟨rows, congrArg some shows, fun other => ⟨?_, ?_⟩⟩
    · rintro ⟨mem, same⟩
      obtain ⟨⟨fee', rental'⟩, owed', view⟩ := (members other).1 mem
      obtain ⟨hfee, hrental, -⟩ := (Tables.mem_owedIn filed).1 owed'
      -- The row is viewed by the fee that stands under its identifier, which is the settled one.
      rw [← id_of_view? view, same, Fee.paidView, owed] at hfee
      obtain rfl := Option.some.inj (Except.ok.inj hfee)
      obtain rfl := Option.some.inj (Except.ok.inj (lent.symm.trans hrental))
      exact (Option.some.inj (view.symm.trans (view?_of_settled settled ..))).trans hview
    · rintro rfl
      refine ⟨(members _).2 ⟨(fee, row), (Tables.mem_owedIn filed).2 ⟨owed, lent, owner⟩, ?_⟩, rfl⟩
      exact (view?_of_settled settled ..).trans (congrArg some hview)
  case invoices =>
    intro line clock failing asks
    rw [Shop.replyTo_listing store filed clock failing (l := .invoices) asks]
    rcases Listing.shown_invoices terms t clock failing valid with failed | shows
    · exact .inl (congrArg some failed)
    · exact .inr ⟨_, congrArg some shows, Tables.mem_paidIn.2 ⟨issued, payer⟩⟩

/-- What is settled is held by every later store. -/
theorem Tables.History.holds {t later : Tables} (h : t.History later) (medium : Medium) {fee : Fee}
    {rental : Rental} {invoice : Invoice} (owed : t.fees.get? fee.id = some fee)
    (settled : fee.isSettled = true) (unsigned : fee.amount.Unsigned)
    (lent : ∃ row, t.rentals.get? fee.rentalId = some row ∧ row.id = rental.id ∧
      row.itemId = rental.itemId ∧ row.renterId = rental.renterId)
    (issued : t.invoices.get? invoice.id = some invoice) (total : invoice.total.Unsigned) :
    (later.keptIn medium).Holds fee rental invoice where
  owed := by
    obtain ⟨fee', hfee', -, -, same⟩ := h.fees _ fee owed
    rw [fee?_keptIn, hfee', same settled, Option.map_some, medium.fee_eq unsigned]
  lent := by
    obtain ⟨row, hrow, hid, hitem, howner⟩ := lent
    obtain ⟨row', hrow', hid', hitem', howner', -⟩ := h.rentals _ row hrow
    rw [rental?_keptIn]
    exact ⟨row', congrArg Except.ok hrow', hid'.trans hid, hitem'.trans hitem,
      howner'.trans howner⟩
  issued := by
    rw [invoices_keptIn]
    refine ⟨_, rfl, List.mem_map.2 ⟨invoice, Table.mem_values.2 ⟨_, h.invoices _ _ issued⟩,
      medium.invoice_eq total⟩⟩

/-! ## The desk after the payment -/

/-- The numbers of the identifiers that were drawn last, after one more invoice. -/
def invoiced (last : Series → Nat) (s : Series) : Nat := last s + if s = .invoices then 1 else 0

/-- The identifiers in use after a payment. -/
theorem Tables.Clears.uses_settle {t t' : Tables} {rental : Rental} {now : Instant}
    (h : t.Clears rental now t') (lent : t.rentals.get? rental.id = some rental) {fee : Fee}
    {invoice : Invoice} (owed : t.fees.contains fee.id) {s : Series} {id : UInt64}
    (hid : (t'.settle fee invoice).uses s id) :
    t.uses s id ∨ s = .invoices ∧ id = invoice.id := by
  simp only [settle, uses_putFee, uses_putInvoice, Bool.or_eq_true, decide_eq_true_eq] at hid
  rcases hid with ⟨rfl, rfl⟩ | hinvoice | hid
  · exact .inl owed
  · exact .inr hinvoice
  · exact .inl (h.uses lent hid)

/-- The sequences go on behind the identifiers that were drawn, after one more invoice. -/
theorem Policy.Counts.invoiced {t t' : Tables} {ids : Sequences} {last : Series → Nat}
    (h : Policy.history.Counts t ids last)
    (uses : ∀ s id, t'.uses s id → t.uses s id ∨ s = .invoices ∧ id = ids.invoices.next) :
    Policy.history.Counts t' { ids with invoices := ⟨ids.invoices.next + 1⟩ }
      (invoiced last) where
  next s _ := by
    cases s with
    | rentals => exact h.next .rentals rfl
    | fees => exact h.next .fees rfl
    | invoices =>
        have hnext : ids.invoices.next = .ofNat (last .invoices + 1) := h.next .invoices rfl
        change ids.invoices.next + 1 = _
        rw [hnext, RentalDesk.invoiced, if_pos rfl, UInt64.ofNat_add (last .invoices + 1)]
        rfl
  used s id _ hused := by
    rcases uses s id hused with hused | ⟨rfl, rfl⟩
    · exact Nat.le_trans (h.used s id rfl hused) (Nat.le_add_right ..)
    · have hnext : ids.invoices.next = .ofNat (last .invoices + 1) := h.next .invoices rfl
      rw [hnext, RentalDesk.invoiced, if_pos rfl]
      exact Nat.mod_le ..

namespace Floor

open Script

variable {ν : Type} {terms : Terms} {drawn last : Series → Nat} {f g : Floor ν Answer}
  {events : List (Event ν Answer)} {t t' : Tables} {rental : Rental} {now : Instant} {fee : Fee}
  {invoice : Invoice} {shop : Shop}

/-- A quiet shop is a floor without anybody at work. -/
theorem kept_quiet {p : Policy} {medium : Medium} {ρ : Type} (store : shop.store = t.keptIn medium)
    (keyed : t.Keyed) (quiet : shop.Quiet .empty) (counts : p.Counts t shop.sequences last) :
    (ofShop shop : Floor ν ρ).Kept p medium t last where
  store := store
  keyed := keyed
  serves := quiet.locks.vacant fun _ => rfl
  counts := counts
  sessions v s present := by cases present
  apart v w s u _ present := by cases present

/-- After a payment the desk is ready for whoever comes. -/
theorem Kept.settled {medium : Medium} (kept : f.Kept .history medium t last)
    (clears : t.Clears rental now t') (lent : t.rentals.get? rental.id = some rental)
    (owed : t.fees.contains fee.id) (drawn : invoice.id = f.shop.sequences.invoices.next)
    (store : shop.store = (t'.settle fee invoice).keptIn medium)
    (sequences : shop.sequences = { f.shop.sequences with invoices := ⟨invoice.id + 1⟩ })
    (quiet : shop.Quiet .empty) :
    (ofShop shop : Floor ν Answer).Kept .history medium (t'.settle fee invoice)
      (invoiced last) := by
  have keyed : (t'.settle fee invoice).Keyed :=
    ((clears.keyed kept.keyed).putInvoice _).putFee _
  have counts := kept.counts.invoiced fun s id hid => by
    rw [← drawn]
    exact clears.uses_settle lent owed hid
  rw [← drawn, ← sequences] at counts
  exact kept_quiet store keyed quiet counts

/-- The invoice that is drawn next is not the one under the identifier zero. -/
theorem Kept.numbered_settled {medium : Medium} (kept : f.Kept .history medium t last)
    (numbered : t.Numbered) (clears : t.Clears rental now t')
    (lent : t.rentals.get? rental.id = some rental) (owed : t.fees.contains fee.id)
    (drawn : invoice.id = f.shop.sequences.invoices.next)
    (few : last .invoices + 1 < UInt64.size) : (t'.settle fee invoice).Numbered := by
  intro s
  refine Bool.eq_false_iff.2 fun hused => ?_
  rcases clears.uses_settle lent owed hused with hused | ⟨-, zero⟩
  · rw [numbered s] at hused
    cases hused
  · have hnext : f.shop.sequences.invoices.next = .ofNat (last .invoices + 1) :=
      kept.counts.next .invoices rfl
    have hnumber : 0 = (last .invoices + 1) % UInt64.size :=
      congrArg UInt64.toNat (zero.trans (drawn.trans hnext))
    rw [Nat.mod_eq_of_lt few] at hnumber
    exact absurd hnumber.symm (Nat.succ_ne_zero _)

variable [DecidableEq ν]

/-- What is settled stays on record, whoever is served. -/
theorem Run.records (run : f.Run events g) (kept : f.Kept .history terms.medium t last)
    (idle : ∀ v, f.sessions v = none) (numbered : t.Numbered) (filed : t.Filed)
    (served : ∀ e ∈ events, e.Served terms) (few : ∀ s, last s + draws events s < UInt64.size)
    (owed : t.fees.get? fee.id = some fee) (settled : fee.isSettled = true)
    (unsigned : fee.amount.Unsigned)
    (lent : ∃ row, t.rentals.get? fee.rentalId = some row ∧ row.id = rental.id ∧
      row.itemId = rental.itemId ∧ row.renterId = rental.renterId)
    (issued : t.invoices.get? invoice.id = some invoice) (total : invoice.total.Unsigned)
    (payer : invoice.renterId = rental.renterId) (valid : rental.renterId ≠ 0) :
    g.shop.Records terms rental.renterId (fee.paidView rental) invoice := by
  obtain ⟨now, kept', filed'⟩ := run.keeps (P := Tables.Filed)
    (fun _ filed deal => deal.filed filed) kept idle numbered filed
    (fun e he => (served e he).anybody) few
  obtain ⟨later, kept'', onward⟩ := run.kept (Policy.history_sound terms.medium) kept
    (fun e he => (served e he).heeded) few
  have holds := onward.history.holds terms.medium owed settled unsigned lent issued total
  rw [← kept''.store] at holds
  exact holds.records settled payer valid kept'.store filed'

/-- So does a fee that was settled by the invoice that was drawn next. -/
theorem Run.records_settled (run : (ofShop shop).Run events g)
    (kept : f.Kept .history terms.medium t last) (numbered : t.Numbered) (filed : t.Filed)
    (clears : t.Clears rental now t') (lent : t.rentals.get? rental.id = some rental)
    (of : rental.id = fee.rentalId) (owed : t.fees.contains fee.id)
    (drawn : invoice.id = f.shop.sequences.invoices.next)
    (store : shop.store = (t'.settle fee invoice).keptIn terms.medium)
    (sequences : shop.sequences = { f.shop.sequences with invoices := ⟨invoice.id + 1⟩ })
    (quiet : shop.Quiet .empty) (served : ∀ e ∈ events, e.Served terms)
    (few : ∀ s, invoiced last s + draws events s < UInt64.size) (unsigned : fee.amount.Unsigned)
    (total : invoice.total = fee.amount) (payer : invoice.renterId = rental.renterId)
    (valid : rental.renterId ≠ 0) :
    g.shop.Records terms rental.renterId (fee.paidView rental) invoice := by
  have kept' : (ofShop shop : Floor ν Answer).Kept .history terms.medium (t'.settle fee invoice)
      (invoiced last) := kept.settled clears lent owed drawn store sequences quiet
  have numbered' : (t'.settle fee invoice).Numbered :=
    kept.numbered_settled numbered clears lent owed drawn
      (Nat.lt_of_le_of_lt (Nat.le_add_right ..) (few .invoices))
  let paid : Fee := { fee with settlement := some invoice.id }
  have hpaid : (t'.settle fee invoice).fees.get? paid.id = some paid := by
    rw [Tables.fees_settle, Table.get?_insert, if_pos rfl]
  have issued : (t'.settle fee invoice).invoices.get? invoice.id = some invoice := by
    rw [Tables.invoices_settle, Table.get?_insert, if_pos rfl]
  have records : g.shop.Records terms rental.renterId (paid.paidView rental) invoice :=
    run.records kept' (fun v => rfl) numbered' ((clears.filed filed).settle fee invoice) served few
      hpaid rfl unsigned (clears.lent of lent) issued (total ▸ unsigned) payer valid
  exact records

/-- Whatever has happened at a desk that was opened at acceptable prices, and whoever has been
served: if nobody is at work, and a renter is shown a fee that is not paid, and pays it at the same
time while no call fails, then the payment is over the amount that was shown. There is an invoice
over it, and a reason. Whoever is served from then on, the renter is shown the fee as paid, with the
same amount and that reason, and that invoice, whenever he asks for it and no list fails. -/
theorem Reached.quote_is_charged (reached : f.Reached Tariff.Accepted terms drawn)
    (idle : ∀ v, f.sessions v = none) {clock : Instant} {failing : List StoreCall}
    {asks pays : List Char} {renter : RenterId} {rows : List FeeView} {row : FeeView}
    (lists : Command.parse asks = .ok (.listFees renter))
    (shown : f.shop.replyTo terms clock failing asks = some (.fees rows)) (mem : row ∈ rows)
    (unpaid : row.paid = false) (settles : Command.parse pays = .ok (.pay row.id renter)) :
    ∃ shop' rental invoice,
      { f.shop with clock, failing := [] }.run (terms.answerLine pays) =
        (shop', some (.pay .settled row.amount)) ∧
      f.shop.store.rental? row.rentalId = .ok (some rental) ∧
      (∃ fee, shop'.store.fee? row.id = .ok (some fee) ∧ fee.settlement = some invoice.id) ∧
      invoice.issuedAt = clock ∧ invoice.total = row.amount ∧
      ∀ more g, (ofShop shop' : Floor ν Answer).Run more g → (∀ e ∈ more, e.Served terms) →
        (∀ s, invoiced drawn s + draws more s < UInt64.size) →
        g.shop.Records terms renter
          { row with reason := rental.reasonAt clock row.reason, paid := true } invoice := by
  obtain ⟨t, last, le, kept, numbered, intact, filed, unsigned⟩ :=
    reached.keeps (P := fun t => t.Intact ∧ t.Filed ∧ t.Unsigned) ⟨.empty, .empty, .empty⟩
      fun accepted ⟨intact, filed, unsigned⟩ deal =>
        ⟨deal.intact intact, deal.filed filed, deal.unsigned accepted unsigned⟩
  rw [Shop.replyTo_listing kept.store filed clock failing (l := .fees) lists] at shown
  obtain ⟨fee, rental, owed, lent, rfl, valid, quoted⟩ :=
    Listing.mem_shown_fees filed unsigned (Option.some.inj shown) mem
  have fields := fields_of_view? quoted
  have hid : row.id = fee.id := by rw [fields]
  have unsettled : fee.settlement = none := by
    rw [fields] at unpaid
    exact Option.isSome_eq_false_iff.1 unpaid |> Option.isNone_iff_eq_none.1
  have named : ¬ (fee.id = 0 ∨ rental.renterId = 0) := by
    rintro (zero | zero)
    · have used : t.uses .fees fee.id := Table.contains_of_get? owed
      rw [zero, numbered .fees] at used
      cases used
    · exact valid zero
  let calm : Shop := { f.shop with clock, failing := [] }
  let d : PlainDesk := ⟨t, f.shop.sequences⟩
  have quiet : calm.Quiet .empty :=
    ⟨rfl, kept.serves.vacant fun v => by rw [claims, idle v, Option.elim_none]⟩
  obtain ⟨t', shop', clears, hrun, store', sequences', quiet'⟩ := quiet.run_pay_quoted (d := d)
    kept.store rfl filed intact named owed (unsigned _ fee owed) lent unsettled quoted
  let invoice : Invoice := ⟨f.shop.sequences.invoices.next, rental.renterId, clock, row.amount⟩
  let reason := rental.reasonAt clock row.reason
  let charged : Fee := { fee with amount := row.amount, reason }
  have store' : shop'.store = (t'.settle charged invoice).keptIn terms.medium := store'
  have amount : charged.amount.Unsigned :=
    unsigned_of_view? reached.accepted (unsigned _ fee owed) quoted
  have of : rental.id = charged.rentalId := filed.rentals _ rental lent
  have hlent : t.rentals.get? rental.id = some rental := by rwa [of]
  refine ⟨shop', rental, invoice, ?_, ?_, ?_, rfl, rfl, fun more g run served few => ?_⟩
  · rw [Terms.answerLine, settles, hid]
    exact hrun
  · rw [kept.store, Tables.rental?_keptIn, fields, hlent]
  · refine ⟨terms.medium.fee { charged with settlement := some invoice.id }, ?_,
      terms.medium.settlement_fee _⟩
    rw [store', Tables.fee?_keptIn, hid, Tables.fees_settle, Table.get?_insert, if_pos rfl,
      Option.map_some]
  · have few' : ∀ s, invoiced last s + draws more s < UInt64.size := fun s =>
      Nat.lt_of_le_of_lt (Nat.add_le_add_right (Nat.add_le_add_right (le s) _) _) (few s)
    have same : { row with reason, paid := true } = charged.paidView rental := by
      rw [fields]
      rfl
    rw [same]
    exact run.records_settled kept numbered filed clears hlent of (Table.contains_of_get? owed) rfl
      store' sequences' quiet' served few' amount rfl rfl valid

end Floor

theorem Floor.Reached.quote_is_charged_morning :
    let f := (Floor.atDawn.follow morning).2
    let later : Instant := (Instant.ofMillis? 120000 0).getD .epoch
    let terms : Terms := ⟨.standard, .archive⟩
    let row : FeeView := ⟨1, 1, 1, ⟨false, 1300, 2, by decide, by decide⟩, baseFeeReason, false⟩
    f.shop.replyTo terms later [] "LIST_FEES;7".toList = some (.fees [row]) ∧
      ∃ shop' rental invoice,
        { f.shop with clock := later, failing := [] }.run (terms.answerLine "PAY;1;7".toList) =
          (shop', some (.pay .settled row.amount)) ∧
        f.shop.store.rental? row.rentalId = .ok (some rental) ∧
        (∃ fee, shop'.store.fee? row.id = .ok (some fee) ∧ fee.settlement = some invoice.id) ∧
        invoice.issuedAt = later ∧ invoice.total = row.amount ∧
        ∀ more g, (Floor.ofShop shop' : Floor Bool Script.Answer).Run more g →
          (∀ e ∈ more, e.Served terms) →
          (∀ s, invoiced (fun s => 0 + draws (Floor.atDawn.follow morning).1 s) s + draws more s <
            UInt64.size) →
          g.shop.Records terms 7
            { row with reason := rental.reasonAt later row.reason, paid := true } invoice := by
  intro f later terms row
  have shown : f.shop.replyTo terms later [] "LIST_FEES;7".toList = some (.fees [row]) := by
    decide +kernel
  have reached : f.Reached Tariff.Accepted terms _ := .at_noon ⟨.standard, rfl⟩
  exact ⟨shown, Floor.Reached.quote_is_charged reached Floor.idle_morning (by decide +kernel) shown
    List.mem_cons_self rfl (by decide +kernel)⟩

end RentalDesk
