import RentalDesk.Proofs.Amounts
import RentalDesk.Proofs.Arithmetic.Value
import RentalDesk.Proofs.Dealing.Dues
import RentalDesk.Proofs.Dealing.Reached

/-!
# Currency scale

What is settled is rounded to currency scale, and so is the total of an invoice. A fee that is not
settled yet is the base fee of the prices at which the rental began, as it was set: opening a desk
does not round the base fee, and neither does lending. So the amounts of a desk are all at currency
scale if and as long as its base fees are.
-/

namespace RentalDesk

namespace Decimal

/-- An amount of money that is not negative and has no more decimals than money has. -/
structure AtCurrencyScale (d : Decimal) : Prop where
  unsigned : d.Unsigned
  scale_le : d.scale ≤ currencyScale

end Decimal

/-- What a rental has come to is an amount at currency scale. -/
theorem Tariff.atCurrencyScale_accrued {tariff : Tariff} (rate : tariff.accrualRate.Unsigned)
    {base amount : Decimal} (unsigned : base.Unsigned) {start stop : Instant}
    (h : tariff.accrued base start stop = .ok amount) : amount.AtCurrencyScale := by
  refine ⟨unsigned_accrued rate unsigned h, ?_⟩
  rw [accrued] at h
  split at h
  · rw [← Except.ok.inj h]
    exact Decimal.scale_rounded_le _
  · cases h

namespace Tables

variable {accepts : Tariff → Prop} {terms : Terms} {t t' : Tables} {renter? : Option RenterId}

/-- What is settled is at currency scale, and what is not is a base fee that was in force. -/
structure Priced (accepts : Tariff → Prop) (t : Tables) : Prop where
  settled : ∀ key fee, t.fees.get? key = some fee → fee.isSettled = true →
    fee.amount.AtCurrencyScale
  owed : ∀ key fee, t.fees.get? key = some fee → fee.isSettled = false →
    ∃ tariff, accepts tariff ∧ fee.amount = tariff.baseFee
  totals : ∀ key invoice, t.invoices.get? key = some invoice → invoice.total.AtCurrencyScale

namespace Priced

theorem empty : Tables.empty.Priced accepts := by
  constructor <;> simp [Tables.empty]

theorem lend (h : t.Priced accepts) {item : Item} {rental : Rental} {fee : Fee} {tariff : Tariff}
    (accepted : accepts tariff) (unsettled : fee.isSettled = false)
    (amount : fee.amount = tariff.baseFee) : (t.lend item rental fee).Priced accepts := by
  obtain ⟨settled, owed, totals⟩ := h
  constructor <;> simp only [fees_lend, invoices_lend, Table.get?_insert]
  case settled => grind
  case owed => grind
  case totals => exact totals

theorem close (h : t.Priced accepts) (item : Item) (rental : Rental) (now : Instant) :
    (t.close item rental now).Priced accepts :=
  ⟨h.settled, h.owed, h.totals⟩

theorem settle (h : t.Priced accepts) {fee : Fee} {invoice : Invoice}
    (amount : fee.amount.AtCurrencyScale) (total : invoice.total = fee.amount) :
    (t.settle fee invoice).Priced accepts := by
  obtain ⟨settled, owed, totals⟩ := h
  constructor <;> simp only [fees_settle, invoices_settle, Table.get?_insert]
  case settled => grind
  case owed => grind [Fee.isSettled]
  case totals => grind

end Priced

/-- A fee is settled at the amount that its rental has come to, for its rental is open. -/
theorem Deal.priced (deal : t.Deal terms renter? t') (accepted : accepts terms.tariff)
    (sound : terms.tariff.Accepted) (unsigned : t.Unsigned) (dues : t.Dues)
    (h : t.Priced accepts) : t'.Priced accepts := by
  cases deal with
  | registered => exact ⟨h.settled, h.owed, h.totals⟩
  | lent prices => exact h.lend accepted rfl (congrArg Tariff.baseFee prices)
  | returned _ owed _ _ _ _ _ _ accrued =>
      rw [terms.medium.fee_eq (unsigned _ _ owed)] at accrued
      exact (h.close ..).settle
        (Tariff.atCurrencyScale_accrued sound.unsigned.2 (unsigned _ _ owed) accrued) rfl
  | paid _ owed unsettled lent of closed =>
      rw [dues.settled owed (of ▸ lent) closed] at unsettled
      cases unsettled

/-- Whatever fee is read of a medium is a fee of the tables, as nothing is lost of its amount. -/
theorem Unsigned.get?_of_read (unsigned : t.Unsigned) {medium : Medium} {fee : Fee}
    (mem : fee ∈ t.fees.values.map medium.fee) : ∃ key, t.fees.get? key = some fee := by
  obtain ⟨found, hfound, rfl⟩ := List.mem_map.1 mem
  obtain ⟨key, hkey⟩ := Table.mem_values.1 hfound
  rw [medium.fee_eq (unsigned key found hkey)]
  exact ⟨key, hkey⟩

end Tables

namespace Floor

variable {ν : Type} [DecidableEq ν] {accepts : Tariff → Prop} {terms : Terms}
  {drawn : Series → Nat} {f : Floor ν Script.Answer}

/-- In whatever state a desk is found that was opened at acceptable prices, with an archive also
reopened at others: its fees and invoices can be read, and every invoice and every settled fee is at
currency scale. A fee that is not settled is not negative and is a base fee exactly as it was set.
So all of them are at currency scale if the base fees are. -/
theorem Reached.money_at_scale (reached : f.Reached accepts terms drawn)
    (sound : ∀ tariff, accepts tariff → tariff.Accepted) :
    ∃ fees invoices, f.shop.store.fees = .ok fees ∧ f.shop.store.invoices = .ok invoices ∧
      (∀ invoice ∈ invoices, invoice.total.AtCurrencyScale) ∧
      (∀ fee ∈ fees, fee.isSettled = true → fee.amount.AtCurrencyScale) ∧
      (∀ fee ∈ fees, fee.isSettled = false → fee.amount.Unsigned ∧
        ∃ tariff, accepts tariff ∧ fee.amount = tariff.baseFee) ∧
      ((∀ tariff, accepts tariff → tariff.baseFee.scale ≤ Decimal.currencyScale) →
        ∀ fee ∈ fees, fee.amount.AtCurrencyScale) := by
  obtain ⟨t, _, -, kept, -, -, unsigned, -, priced⟩ := reached.keeps
    (P := fun t => t.Intact ∧ t.Unsigned ∧ t.Dues ∧ t.Priced accepts)
    ⟨.empty, .empty, .empty, .empty⟩
    fun accepted ⟨intact, unsigned, dues, priced⟩ deal =>
      ⟨deal.intact intact, deal.unsigned (sound _ accepted) unsigned, deal.dues intact dues,
        deal.priced accepted (sound _ accepted) unsigned dues priced⟩
  have owed : ∀ fee ∈ t.fees.values.map terms.medium.fee, fee.isSettled = false →
      fee.amount.Unsigned ∧ ∃ tariff, accepts tariff ∧ fee.amount = tariff.baseFee := by
    intro fee mem unsettled
    obtain ⟨key, hkey⟩ := unsigned.get?_of_read mem
    exact ⟨unsigned key fee hkey, priced.owed key fee hkey unsettled⟩
  have settled : ∀ fee ∈ t.fees.values.map terms.medium.fee, fee.isSettled = true →
      fee.amount.AtCurrencyScale := by
    intro fee mem final
    obtain ⟨key, hkey⟩ := unsigned.get?_of_read mem
    exact priced.settled key fee hkey final
  rw [kept.store, Tables.fees_keptIn, Tables.invoices_keptIn]
  refine ⟨_, _, rfl, rfl, fun invoice mem => ?_, settled, owed, fun low fee mem => ?_⟩
  · obtain ⟨found, hfound, rfl⟩ := List.mem_map.1 mem
    obtain ⟨key, hkey⟩ := Table.mem_values.1 hfound
    have total := priced.totals key found hkey
    rwa [terms.medium.invoice_eq total.unsigned]
  · cases final : fee.isSettled with
    | true => exact settled fee mem final
    | false =>
        obtain ⟨amount, tariff, accepted, base⟩ := owed fee mem final
        rw [base] at amount ⊢
        exact ⟨amount, low tariff accepted⟩

end Floor

/-- A base fee that ends in half a cent is acceptable. -/
def Tariff.halfCent : Tariff := ⟨⟨false, 10005, 3, by decide, by decide⟩, standard.accrualRate⟩

theorem Tariff.accepted_halfCent : halfCent.Accepted :=
  ⟨⟨halfCent.baseFee, halfCent.accrualRate, 0⟩, rfl⟩

namespace Floor

/-- Two items are registered, a renter takes both of them and brings one back at once. -/
def bothTaken : List (Move Nat Script.Answer) :=
  servings ⟨.halfCent, .memory⟩ [(1, .register (.new 1 "Heat")), (2, .register (.new 2 "Ran")),
      (3, .call (.send "RENT;1;7")), (4, .call (.send "RENT;2;7")), (5, .call (.send "PAY;1;7"))]
    [(1, 8), (2, 8), (3, 30), (4, 30), (5, 40)] []

def afterBothTaken : Floor Nat Script.Answer :=
  ((ofShop (.opened (.empty .memory) .fresh 100 .epoch)).follow bothTaken).2

theorem reached_bothTaken :
    ∃ drawn, afterBothTaken.Reached (Eq .halfCent) ⟨.halfCent, .memory⟩ drawn :=
  ⟨_, .of_sitting ⟨.halfCent, .memory⟩ rfl 100 .epoch (by decide +kernel)⟩

/-- The fee that is settled is rounded up to a cent. -/
theorem Reached.money_at_scale_bothTaken :
    ∃ fees invoices, afterBothTaken.shop.store.fees = .ok fees ∧
      afterBothTaken.shop.store.invoices = .ok invoices ∧
      fees.map (fun fee => (fee.amount.mantissa, fee.amount.scale, fee.isSettled)) =
        [(1001, 2, true), (10005, 3, false)] ∧
      (∀ invoice ∈ invoices, invoice.total.AtCurrencyScale) ∧
      (∀ fee ∈ fees, fee.isSettled = true → fee.amount.AtCurrencyScale) := by
  have amounts : afterBothTaken.shop.store.fees.toOption.map
      (·.map fun fee => (fee.amount.mantissa, fee.amount.scale, fee.isSettled)) =
        some [(1001, 2, true), (10005, 3, false)] := by
    decide +kernel
  obtain ⟨drawn, reached⟩ := reached_bothTaken
  obtain ⟨fees, invoices, hfees, hinvoices, totals, settled, -⟩ :=
    reached.money_at_scale fun tariff accepted => accepted ▸ Tariff.accepted_halfCent
  refine ⟨fees, invoices, hfees, hinvoices, ?_, totals, settled⟩
  rw [hfees] at amounts
  exact Option.some.inj amounts

/-- The fee that is not settled has three decimals, at prices that are acceptable. -/
theorem Reached.not_money_at_scale : Tariff.Accepted .halfCent ∧
    (∃ drawn, afterBothTaken.Reached (Eq .halfCent) ⟨.halfCent, .memory⟩ drawn) ∧
    ∃ fees, afterBothTaken.shop.store.fees = .ok fees ∧
      ∃ fee ∈ fees, ¬ fee.amount.AtCurrencyScale := by
  refine ⟨Tariff.accepted_halfCent, reached_bothTaken, ?_⟩
  have amounts : afterBothTaken.shop.store.fees.toOption.map
      (·.any fun fee => Decimal.currencyScale < fee.amount.scale) = some true := by
    decide +kernel
  obtain ⟨fees, hfees, found⟩ := Option.map_eq_some_iff.1 amounts
  obtain ⟨fee, mem, many⟩ := List.any_eq_true.1 found
  cases hstore : afterBothTaken.shop.store.fees with
  | error e =>
      rw [hstore] at hfees
      cases hfees
  | ok rows =>
      rw [hstore] at hfees
      obtain rfl := Option.some.inj hfees
      exact ⟨_, rfl, fee, mem, fun scale => Nat.not_lt.2 scale.scale_le (of_decide_eq_true many)⟩

end Floor

end RentalDesk
