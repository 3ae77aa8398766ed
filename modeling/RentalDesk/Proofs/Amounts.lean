import RentalDesk.Settings
import RentalDesk.Proofs.Dealing.Deals
import RentalDesk.Proofs.Keeping

/-!
# Amounts without a sign

Prices that a desk can be opened with are not negative, not even a negative zero. So no amount that
is charged has a sign: elapsed times have none, and products, sums and roundings of decimals without
a sign have none. An archive gives such an amount back as it was written.
-/

namespace RentalDesk

namespace Decimal

/-- The decimal has no minus sign, so an archive gives it back as it is. -/
def Unsigned (d : Decimal) : Prop := d.negative = false

variable {a b c : Decimal} {mantissa scale : Nat}

theorem unsigned_signed? (h : signed? false mantissa scale = some c) : c.Unsigned := by
  rw [signed?] at h
  split at h
  · rw [← Option.some.inj h, Unsigned]
  · cases h

theorem unsigned_ofParts? (h : ofParts? false mantissa scale = some c) : c.Unsigned := by
  rw [ofParts?, Bool.false_and] at h
  exact unsigned_signed? h

theorem unsigned_fit? (h : fit? false mantissa scale = some c) : c.Unsigned := by
  obtain ⟨dropped, -, hfit⟩ := List.exists_of_findSome?_eq_some h
  split at hfit
  · exact unsigned_signed? hfit
  · cases hfit

namespace Unsigned

theorem plainZero (h : a.Unsigned) : a.plainZero = a := by
  cases a
  cases h
  rfl

theorem mul? (ha : a.Unsigned) (hb : b.Unsigned) (h : a.mul? b = some c) : c.Unsigned := by
  rw [Decimal.mul?, ha, hb] at h
  split at h
  · rw [← Option.some.inj h]
    rfl
  · split at h
    · obtain ⟨product, hproduct, rfl⟩ := Option.map_eq_some_iff.1 h
      have unsigned := unsigned_fit? hproduct
      rwa [unsigned.plainZero]
    · exact unsigned_fit? h

theorem units_nonneg (h : a.Unsigned) (scale : Nat) : 0 ≤ a.units scale := by
  rw [units, signed, if_neg (Bool.eq_false_iff.1 h)]
  exact Int.mul_nonneg (Int.natCast_nonneg _) (Int.natCast_nonneg _)

theorem add? (ha : a.Unsigned) (hb : b.Unsigned) (h : a.add? b = some c) : c.Unsigned := by
  rw [Decimal.add?] at h
  split at h
  · rwa [← Option.some.inj h]
  · split at h
    · rwa [← Option.some.inj h]
    · have hsum := Int.add_nonneg (ha.units_nonneg (max a.scale b.scale))
        (hb.units_nonneg (max a.scale b.scale))
      dsimp only at h
      rw [decide_eq_false (Int.not_lt.2 hsum)] at h
      exact unsigned_fit? h

theorem rounded (h : a.Unsigned) : a.rounded.Unsigned := by
  have cut (dropped : Nat) : (a.dropDecimals dropped).Unsigned := h
  rw [Decimal.rounded]
  split
  · exact h
  · dsimp only
    split
    · exact cut _
    · rw [(cut _).plainZero]
      exact cut _

end Unsigned

end Decimal

namespace Tariff

variable {tariff : Tariff}

theorem unsigned_elapsedMinutes (start stop : Instant) : (elapsedMinutes start stop).Unsigned := by
  rw [elapsedMinutes]
  cases h : minutesOfMillis? (Instant.millisBetween start stop).toNat with
  | none => rfl
  | some minutes =>
      rw [minutesOfMillis?] at h
      split at h
      · exact Decimal.unsigned_ofParts? h
      · split at h
        · exact Decimal.unsigned_ofParts? h
        · obtain ⟨dropped, -, hparts⟩ := List.exists_of_findSome?_eq_some h
          exact Decimal.unsigned_ofParts? hparts

theorem unsigned_accrued (rate : tariff.accrualRate.Unsigned) {base amount : Decimal}
    (unsigned : base.Unsigned) {start stop : Instant}
    (h : tariff.accrued base start stop = .ok amount) : amount.Unsigned := by
  rw [accrued] at h
  split at h
  · next sum hsum =>
      obtain ⟨product, hproduct, hadd⟩ := Option.bind_eq_some_iff.1 hsum
      have hunsigned := (unsigned_elapsedMinutes start stop).mul? rate hproduct
      rw [← Except.ok.inj h]
      exact (unsigned.add? hunsigned hadd).rounded
  · cases h

/-- The prices are those of some settings that a desk can be opened with. -/
def Accepted (tariff : Tariff) : Prop := ∃ settings : Settings, settings.tariff = .ok tariff

theorem Accepted.unsigned (h : tariff.Accepted) :
    tariff.baseFee.Unsigned ∧ tariff.accrualRate.Unsigned := by
  obtain ⟨settings, haccepted⟩ := h
  rw [Settings.tariff] at haccepted
  split at haccepted
  · cases haccepted
  · next fee =>
      split at haccepted
      · cases haccepted
      · next rate =>
          rw [← Except.ok.inj haccepted]
          exact ⟨Bool.eq_false_iff.2 fee, Bool.eq_false_iff.2 rate⟩

end Tariff

/-! ## Rows -/

/-- A fee of an amount without a sign is read as it was written. -/
theorem Medium.fee_eq {fee : Fee} (h : fee.amount.Unsigned) (medium : Medium) :
    medium.fee fee = fee := by
  cases medium with
  | memory => rfl
  | archive =>
      rw [Medium.fee, Fee.plain, h.plainZero]

theorem Medium.invoice_eq {invoice : Invoice} (h : invoice.total.Unsigned) (medium : Medium) :
    medium.invoice invoice = invoice := by
  cases medium with
  | memory => rfl
  | archive => rw [Medium.invoice, Invoice.plain, h.plainZero]

/-- No fee has an amount with a sign. -/
def Tables.Unsigned (t : Tables) : Prop :=
  ∀ id fee, t.fees.get? id = some fee → fee.amount.Unsigned

namespace Tables

variable {terms : Terms} {t t' : Tables} {renter? : Option RenterId}

theorem Unsigned.empty : Tables.empty.Unsigned :=
  fun _ _ h => absurd h.symm (Option.some_ne_none _)

theorem Unsigned.insert (h : t.Unsigned) (row : Fee) (unsigned : row.amount.Unsigned) :
    ∀ id fee, (t.fees.insert row.id row).get? id = some fee → fee.amount.Unsigned := by
  intro id fee hfee
  rw [Table.get?_insert] at hfee
  split at hfee
  · rwa [← Option.some.inj hfee]
  · exact h id fee hfee

theorem Deal.unsigned (deal : t.Deal terms renter? t') (accepted : terms.tariff.Accepted)
    (h : t.Unsigned) : t'.Unsigned := by
  obtain ⟨base, rate⟩ := accepted.unsigned
  cases deal with
  | registered => exact h
  | @lent c _ _ prices =>
      have amount : c.fee.amount.Unsigned := by
        rw [← prices] at base
        exact base
      exact h.insert _ amount
  | @returned c fee rental item amount _ owed _ _ _ _ _ _ accrued =>
      rw [terms.medium.fee_eq (h _ _ owed)] at accrued ⊢
      exact h.insert _ (Tariff.unsigned_accrued rate (h _ _ owed) accrued)
  | @paid _ fee _ _ owed =>
      rw [terms.medium.fee_eq (h _ _ owed)]
      have amount : fee.amount.Unsigned := h _ _ owed
      exact h.insert _ amount

end Tables

end RentalDesk
