import RentalDesk.Proofs.Availability

/-!
# The ledger

Rentals, fees and invoices refer to each other. In every run from an empty store every rental has
one fee, a rental is closed if and only if its fee is settled, and the settled fees and the
invoices correspond to each other one to one, with the amount, the renter and the time of the
settlement on the invoice. So the two errors about references that lead nowhere never occur.
-/

namespace RentalDesk

namespace Tables

/-- The references between rentals, fees and invoices are sound, and open fees are base fees. -/
structure Balanced (base : Decimal) (t : Tables) : Prop where
  lent : ∀ key fee, t.fees.get? key = some fee → ∃ rental, t.rentals.get? fee.rentalId = some rental
  charged : ∀ key rental, t.rentals.get? key = some rental →
    ∃ id fee, t.fees.get? id = some fee ∧ fee.rentalId = key
  charged_once : ∀ id id' fee fee', t.fees.get? id = some fee → t.fees.get? id' = some fee' →
    fee.rentalId = fee'.rentalId → id = id'
  closed_iff : ∀ key fee rental, t.fees.get? key = some fee →
    t.rentals.get? fee.rentalId = some rental →
    (rental.returnedAt.isSome ↔ fee.settlement.isSome)
  receipt : ∀ key fee rental id, t.fees.get? key = some fee →
    t.rentals.get? fee.rentalId = some rental → fee.settlement = some id →
    ∃ invoice, t.invoices.get? id = some invoice ∧ invoice.total = fee.amount ∧
      invoice.renterId = rental.renterId ∧ rental.returnedAt = some invoice.issuedAt
  settles : ∀ id invoice, t.invoices.get? id = some invoice →
    ∃ key fee, t.fees.get? key = some fee ∧ fee.settlement = some id
  settles_once : ∀ key key' fee fee' id, t.fees.get? key = some fee →
    t.fees.get? key' = some fee' → fee.settlement = some id → fee'.settlement = some id →
    key = key'
  base : ∀ key fee, t.fees.get? key = some fee → fee.settlement = none →
    fee.amount = base ∧ fee.reason = baseFeeReason

namespace Balanced

variable {base : Decimal} {t : Tables}

theorem empty : Tables.empty.Balanced base := by
  constructor <;> simp [Tables.empty]

/-- A new rental and its new fee refer to each other, and nothing refers to them yet. -/
theorem lend (h : t.Balanced base) {item : Item} {rental : Rental} {fee : Fee}
    (freshRental : t.rentals.get? rental.id = none) (freshFee : t.fees.get? fee.id = none)
    (of : fee.rentalId = rental.id) (still : rental.returnedAt = none)
    (unsettled : fee.settlement = none) (amount : fee.amount = base)
    (reason : fee.reason = baseFeeReason) : (t.lend item rental fee).Balanced base := by
  have hother : ∀ key other, t.fees.get? key = some other → other.rentalId ≠ rental.id := by
    intro key other hother hid
    obtain ⟨row, hrow⟩ := h.lent key other hother
    rw [hid, freshRental] at hrow
    cases hrow
  obtain ⟨lent, charged, charged_once, closed_iff, receipt, settles, settles_once, hbase⟩ := h
  constructor <;> simp only [fees_lend, rentals_lend, invoices_lend, Table.get?_insert]
  case lent => grind
  case charged => grind
  case charged_once => grind
  case closed_iff => grind
  case receipt => grind
  case settles => grind
  case settles_once => grind
  case base => grind

/-- The fee of an open rental is settled by a new invoice while the rental is closed. -/
theorem settle_close (h : t.Balanced base) {item : Item} {rental : Rental} {fee fee' : Fee}
    {invoice : Invoice} {now : Instant} (owed : t.fees.get? fee.id = some fee)
    (unsettled : fee.settlement = none) (lent : t.rentals.get? fee.rentalId = some rental)
    (rental_id : rental.id = fee.rentalId) (fresh : t.invoices.get? invoice.id = none)
    (same : fee'.id = fee.id ∧ fee'.rentalId = fee.rentalId) (total : invoice.total = fee'.amount)
    (renter : invoice.renterId = rental.renterId) (issued : invoice.issuedAt = now) :
    ((t.close item rental now).settle fee' invoice).Balanced base := by
  -- No fee is settled by the new invoice, for every settled fee has its invoice already.
  have hother : ∀ key other, t.fees.get? key = some other →
      other.settlement ≠ some invoice.id := by
    intro key other hother hsettled
    obtain ⟨row, hrow⟩ := h.lent key other hother
    obtain ⟨receipt, hreceipt, -⟩ := h.receipt key other row invoice.id hother hrow hsettled
    rw [fresh] at hreceipt
    cases hreceipt
  obtain ⟨hlent, charged, charged_once, closed_iff, receipt, settles, settles_once, hbase⟩ := h
  constructor <;> simp only [fees_settle, rentals_settle, invoices_settle, fees_close,
    rentals_close, invoices_close, Table.get?_insert]
  case lent => grind
  case charged => grind
  case charged_once => grind
  case closed_iff => grind
  case receipt => grind
  case settles => grind
  case settles_once => grind
  case base => grind

theorem change {c : Circumstances} {errand : Errand} {o : Outcome} {after : Tables}
    (h : t.Balanced c.tariff.baseFee) (keyed : t.Keyed)
    (hchange : Errand.Change c t errand o after)
    (fresh : ∀ series ∈ errand.draws, t.uses series (c.ids.next series) = false) :
    after.Balanced c.tariff.baseFee := by
  cases hchange with
  | registered =>
      exact ⟨h.lent, h.charged, h.charged_once, h.closed_iff, h.receipt, h.settles,
        h.settles_once, h.base⟩
  | rented =>
      have hrental := get?_of_unused_rental (fresh .rentals List.mem_cons_self)
      have hfee := get?_of_unused_fee (fresh .fees (List.mem_cons_of_mem _ List.mem_cons_self))
      exact h.lend hrental hfee rfl rfl rfl rfl rfl
  | returned owed unsettled lent owner =>
      have hinvoice := get?_of_unused_invoice (fresh .invoices List.mem_cons_self)
      obtain rfl := keyed.fee_id owed
      exact h.settle_close owed unsettled lent (keyed.rental_id lent) hinvoice ⟨rfl, rfl⟩ rfl
        owner.symm rfl
  | paid owed unsettled lent _ back =>
      -- A closed rental has a settled fee.
      have hsettled := (h.closed_iff _ _ _ owed lent).1 (by rw [back]; rfl)
      rw [unsettled] at hsettled
      cases hsettled

end Balanced

end Tables

theorem Chain.balanced {tariff : Tariff} {t₀ t : Tables} {entries : List Entry}
    (h : Chain tariff t₀ entries t) (keyed : t₀.Keyed) (balanced : t₀.Balanced tariff.baseFee) :
    t.Balanced tariff.baseFee := by
  refine (h.invariant (P := fun t => t.Keyed ∧ t.Balanced tariff.baseFee) ⟨keyed, balanced⟩ ?_).2
  rintro c t errand o after ⟨hkeyed, hbalanced⟩ change rfl fresh
  exact ⟨change.keyed hkeyed, hbalanced.change hkeyed change fresh⟩

/-- Whether the error is about a reference to a row that is not stored. -/
def Error.isDangling : Error → Bool
  | .storage (.missingRental ..) | .storage (.missingItem ..) => true
  | _ => false

theorem Error.not_dangling_of_hindrance {e : Error} (h : e.isHindrance = true) :
    e.isDangling = false := by
  cases e with
  | storage cause => cases cause <;> first | rfl | cases h
  | lockTimeout key => rfl
  | _ => cases h

theorem Tariff.accrued_not_dangling {tariff : Tariff} {base : Decimal} {first last : Instant}
    {e : Error} (h : tariff.accrued base first last = .error e) : e.isDangling = false := by
  rw [accrued] at h
  split at h
  · cases h
  · cases h
    rfl

namespace Circumstances

variable {c : Circumstances} {base : Decimal} {t : Tables} {e : Error}

theorem rent_not_dangling {renter : RenterId} {id : ItemId} (h : c.rent t renter id = .error e) :
    e.isDangling = false := by
  rw [rent] at h
  split at h
  · cases h
    rfl
  split at h
  · cases h
    rfl
  split at h
  · cases h
    rfl
  split at h
  · cases h
  · cases h
    rfl

theorem pay_not_dangling (balanced : t.Balanced base) (agrees : t.ShelfAgrees) {id : FeeId}
    {renter : RenterId} (h : c.pay t id renter = .error e) : e.isDangling = false := by
  rw [pay] at h
  split at h
  · cases h
    rfl
  split at h
  · cases h
    rfl
  next fee owed =>
  obtain ⟨rental, lent⟩ := balanced.lent id fee owed
  obtain ⟨item, found⟩ := agrees.registered fee.rentalId rental lent
  simp only [lent] at h
  split at h
  · cases h
    rfl
  split at h
  · cases h
    rfl
  split at h
  · rw [payOpen, found] at h
    dsimp only at h
    split at h
    · next haccrued =>
        cases h
        exact Tariff.accrued_not_dangling haccrued
    · cases h
  · cases h

/-- On sound references no verdict is about one that leads nowhere. -/
theorem verdict_not_dangling (balanced : t.Balanced base) (agrees : t.ShelfAgrees)
    {errand : Errand} (h : (c.verdict t errand).2.error? = some e) : e.isDangling = false := by
  cases errand with
  | register id title =>
      rw [verdict] at h
      split at h <;> cases h
  | rent renter id =>
      rw [verdict] at h
      split at h
      · cases h
      · next hrent =>
          obtain rfl := Option.some.inj h
          exact rent_not_dangling hrent
  | pay id renter =>
      rw [verdict] at h
      split at h
      · cases h
      · next hpay =>
          obtain rfl := Option.some.inj h
          exact pay_not_dangling balanced agrees hpay

end Circumstances

/-- Whoever does what in which order: rentals, fees and invoices refer to each other as they
should, and nobody is ever told of a reference that leads nowhere. -/
theorem Floor.Run.ledger_balanced {tariff : Tariff} {lockWait : Nat} {clock : Instant}
    {events : List (Event Visit Outcome)} {f : Floor Visit Outcome}
    (run : (Floor.opened lockWait clock).Run events f)
    (ordinary : ∀ e ∈ events, e.Ordinary tariff)
    (few : ∀ series, drawn events series < UInt64.size) :
    (∃ t, f.shop.store = .memory t ∧ t.Balanced tariff.baseFee) ∧
      ∀ v s o e, f.sessions v = some s → s.result? = some o → o.error? = some e →
        e.isDangling = false := by
  have quiet := Floor.quiet_opened lockWait clock
  have few : ∀ series, (Floor.opened lockWait clock).reach events series ≤ UInt64.size :=
    fun series => Floor.reach_opened lockWait clock events series ▸ few series
  obtain ⟨t, order⟩ := run.orderly quiet ordinary few
  refine ⟨⟨t, order.store, order.chain.balanced .empty .empty⟩, ?_⟩
  intro v s o e present result herror
  rcases order.outcome present result with
    ⟨_, _, kept⟩ | ⟨-, ⟨t', saw, hverdict⟩ | ⟨-, e', he', rfl⟩⟩
  · obtain ⟨_, _, _, t', after, -, -, -, -, hverdict⟩ := kept
    rw [(Errand.change_of_verdict hverdict).error?_eq_none] at herror
    cases herror
  · obtain ⟨before, -, chain⟩ := saw.chain quiet ordinary few
    have hfound : (Circumstances.verdict (((chronicle events).entry v).circumstances tariff) t'
        v.errand).2.error? = some e := by rw [hverdict, herror]
    exact Circumstances.verdict_not_dangling (chain.balanced .empty .empty)
      (chain.shelfAgrees .empty .empty) hfound
  · rw [Errand.error?_failed] at herror
    exact Option.some.inj herror ▸ Error.not_dangling_of_hindrance he'

/-- An item is registered, rented and paid for. Somebody else tries to pay in the middle of that. -/
def trade : List (Move Visit Outcome) :=
  let register : Visit := ⟨0, .register 1 "Heat"⟩
  let rent : Visit := ⟨1, .rent 7 1⟩
  let other : Visit := ⟨2, .pay 1 8⟩
  let pay : Visit := ⟨3, .pay 1 7⟩
  turnsOf .standard [register, rent, other, pay]
    [(register, 5), (rent, 40), (pay, 8), (other, 8), (pay, 40), (other, 40)]

theorem Floor.Run.ledger_balanced_trade :
    ∃ t fee, ((Floor.opened 100 .epoch).follow trade).2.shop.store = .memory t ∧
      t.fees.get? 1 = some fee ∧ fee.settlement = some 1 ∧
      t.Balanced Tariff.standard.baseFee := by
  have settled : ((((Floor.opened 100 .epoch).follow trade).2.shop.store.fee? 1).toOption.join.bind
      (·.settlement)) = some 1 := by decide +kernel
  obtain ⟨⟨t, hstore, balanced⟩, -⟩ := Floor.Run.ledger_balanced
    ((Floor.opened 100 .epoch).run_follow trade) (fun e => ordinary_turns) fun series =>
      Nat.lt_of_le_of_lt (drawn_follow_le _ trade series) (by decide +kernel)
  rw [hstore] at settled
  obtain ⟨fee, hfee, hsettled⟩ := Option.bind_eq_some_iff.1 settled
  exact ⟨t, fee, hstore, hfee, hsettled, balanced⟩

end RentalDesk
