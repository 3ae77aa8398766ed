import RentalDesk.Proofs.Dealing.Dues
import RentalDesk.Proofs.Plain.Undisturbed
import RentalDesk.Proofs.Twins

/-!
# Listings while others are at work

A listing takes no locks. Those of items and of invoices look at one table, and so does that of fees
in memory, where fees and rentals are looked at together. The listing of rentals looks at the items
first and then at the rentals, and an archive is looked through for fees by reading the rentals
first and then the fees. Between the two looks others may commit. Then what is listed is what the
listing shows of a mixture: of the first table as it was, and of all others as they are later.

A mixture shows the same as the later tables do by themselves, unless the renter has rented in
between: an item that was registered in between, for the listing of rentals, or anything at all, for
the listing of fees. Otherwise it may show what was never there.
-/

namespace RentalDesk

open Script

/-- The listings of the desk. -/
inductive Survey where
  | fees (renter : RenterId)
  | rentals (renter : RenterId)
  | invoices (renter : RenterId)
  | items

namespace Survey

def query : Survey → Query
  | .fees renter => .listFees renter
  | .rentals renter => .listRentals renter
  | .invoices renter => .listInvoices renter
  | .items => .listItems

/-- The store calls that a listing is made of. -/
def calls : Survey → List StoreCall
  | .fees _ => [.feesOfRenter]
  | .rentals _ => [.items, .rentalsOfRenter]
  | .invoices _ => [.invoicesOfRenter]
  | .items => [.items]

/-- The answer if a store call is made to fail. -/
def failed (call : StoreCall) : Survey → Answer
  | .fees _ => .feeViews (.error (.storage (.injected call)))
  | .rentals _ => .rentalViews (.error (.storage (.injected call)))
  | .invoices _ => .invoices (.error (.storage (.injected call)))
  | .items => .items (.error (.storage (.injected call)))

variable (terms : Terms) (medium : Medium) (t t₁ t₂ : Tables) (now : Instant)

/-- The answer in a shop that keeps these tables, where nobody else is at work and no call fails. -/
def on (s : Survey) : Option Answer :=
  ((Shop.opened (t.keptIn terms.medium) .fresh 0 now).run (s.query.task terms)).2

/-- What a listing sees that begins with the tables `t₁` and ends with the tables `t₂`. -/
def mixed : Survey → Tables
  | .rentals _ => { t₂ with items := t₁.items }
  | .fees _ =>
    match medium with
    | .memory => t₂
    | .archive => { t₂ with rentals := t₁.rentals }
  | .invoices _ | .items => t₂

/-- The renter has rented nothing in between that the first look has missed. -/
def Calm : Survey → Prop
  | .rentals renter => ∀ rental ∈ rentalsOf renter t₂.rentals.values,
      t₁.items.contains rental.itemId
  | .fees renter => medium = .archive → ∀ rental ∈ rentalsOf renter t₂.rentals.values,
      t₁.rentals.contains rental.id
  | .invoices _ | .items => True

/-! ## What a listing is made of -/

/-- The fees of a renter with their rentals. -/
def owedRows (renter : RenterId) : List (Fee × Rental) :=
  feesOf (rentalsOf renter t.rentals.values) (t.fees.values.map terms.medium.fee)

/-- The fees of a renter as they are listed, before they are sorted. -/
def feeRows (renter : RenterId) : Except Error (List FeeView) :=
  (owedRows terms t renter).mapM fun (fee, rental) => terms.tariff.feeView now fee rental

/-- What a listing shows of the tables. -/
def result : Survey → Answer
  | .fees renter => .feeViews (if renter = 0 then .ok [] else
      (feeRows terms t now renter).map newestFees)
  | .rentals renter => .rentalViews (.ok (if renter = 0 then [] else
      (newestRentals (rentalsOf renter t.rentals.values)).map fun rental =>
        ⟨rental, titleOf t.items.values rental.itemId⟩))
  | .invoices renter => .invoices (.ok (if renter = 0 then [] else
      newestInvoices (invoicesOf renter (t.invoices.values.map terms.medium.invoice))))
  | .items => .items (.ok (itemsById t.items.values))

/-- How a listing ends: a call was made to fail, or the listing shows a mixture of two of the tables
that were seen. -/
def Ends (may : Shop → Prop) (s : Survey) (answer : Answer) (seen : List Tables) : Prop :=
  (∃ call ∈ s.calls, answer = s.failed call ∧
    ∃ shop, may shop ∧ shop.failing.contains call = true) ∨
  ∃ t₁ t₂ shop, may shop ∧ [t₁, t₂].Sublist seen ∧
    answer = s.result terms (s.mixed terms.medium t₁ t₂) shop.clock

variable {terms t t₁ t₂ now}

theorem quiet (s : Survey) : (s.query.task terms).Only Action.passes := by
  cases s with
  | fees renter => exact .bind (Operation.quiet_listFees terms renter) fun _ => trivial
  | rentals renter => exact .bind (Operation.quiet_listRentals renter) fun _ => trivial
  | invoices renter => exact .bind (Operation.quiet_listInvoices renter) fun _ => trivial
  | items => exact .bind Operation.quiet_listItems fun _ => trivial

/-! ## How a listing ends -/

section

open Operation

variable {may : Shop → Prop} {shop : Shop} {seen : List Tables} {renter : RenterId}

theorem Ends.failed {s : Survey} {call : StoreCall} (mem : call ∈ s.calls) (hmay : may shop)
    (fails : shop.failing.contains call = true) : s.Ends terms may (s.failed call) seen :=
  .inl ⟨call, mem, rfl, shop, hmay, fails⟩

theorem Ends.shown {s : Survey} {answer : Answer} (hmay : may shop)
    (sub : [t₁, t₂].Sublist seen)
    (h : answer = s.result terms (s.mixed terms.medium t₁ t₂) shop.clock) :
    s.Ends terms may answer seen := .inr ⟨t₁, t₂, shop, hmay, sub, h⟩

theorem pair_sublist (mem : t₁ ∈ seen) : [t₁, t₂].Sublist (seen ++ [t₂]) :=
  (List.singleton_sublist.2 mem).append (.refl [t₂])

theorem sights_items (hmay : may shop) : (Survey.items.query.task terms).Follows
    (sighted terms.medium may) seen (Survey.items.Ends terms may) := by
  refine Task.follows_bind.2 (follows_run.2 (follows_bind.2 ?_))
  refine sights_checked (fun _ _ => .failed List.mem_cons_self) fun t₁ => sights_look fun t₂ => ?_
  exact .shown hmay (pair_sublist (List.mem_append_right _ List.mem_cons_self)) rfl

theorem sights_invoices (hmay : may shop) (valid : renter ≠ 0) :
    ((Survey.invoices renter).query.task terms).Follows (sighted terms.medium may) seen
      ((Survey.invoices renter).Ends terms may) := by
  refine Task.follows_bind.2 (follows_run.2 ?_)
  rw [listInvoices, if_neg valid]
  refine follows_bind.2 (sights_checked (fun _ _ => .failed List.mem_cons_self) fun t₁ =>
    follows_bind.2 (sights_look fun t₂ => ?_))
  refine .shown hmay (pair_sublist (List.mem_append_right _ List.mem_cons_self)) ?_
  rw [result, if_neg valid]
  rfl

theorem sights_rentals (hmay : may shop) (valid : renter ≠ 0) :
    ((Survey.rentals renter).query.task terms).Follows (sighted terms.medium may) seen
      ((Survey.rentals renter).Ends terms may) := by
  refine Task.follows_bind.2 (follows_run.2 ?_)
  rw [listRentals, if_neg valid]
  refine follows_bind.2 (sights_checked (fun _ _ => .failed List.mem_cons_self) fun _ =>
    sights_look fun t₁ => ?_)
  refine follows_bind.2 (sights_checked (fun _ _ => .failed (List.mem_cons_of_mem _
    List.mem_cons_self)) fun _ => follows_bind.2 (sights_look fun t₂ => ?_))
  refine .shown hmay (pair_sublist (List.mem_append_left _ (List.mem_append_right _
    List.mem_cons_self))) ?_
  rw [result, if_neg valid]
  rfl

/-- The fees are joined with the rentals as they were at the first look. -/
theorem sights_feesOfRenter : (terms.feesOfRenter renter).Follows (sighted terms.medium may) seen
    (fun rows seen => ∃ t₁ t₂, [t₁, t₂].Sublist seen ∧
      rows = owedRows terms (mixed terms.medium t₁ t₂ (.fees renter)) renter)
    fun e => (Survey.fees renter).Ends terms may (.feeViews (.error e)) := by
  refine sights_checked (fun _ _ => .failed List.mem_cons_self) fun t₀ => ?_
  have mem : ∀ {t : Tables} {seen}, t ∈ seen ++ [t] := List.mem_append_right _ List.mem_cons_self
  obtain ⟨tariff, medium⟩ := terms
  cases medium with
  | memory =>
      refine follows_bind.2 (sights_look fun t₁ => ?_)
      exact ⟨t₀, t₁, pair_sublist mem, rfl⟩
  | archive =>
      refine follows_bind.2 (sights_look fun t₁ => follows_bind.2 (sights_look fun t₂ => ?_))
      exact ⟨t₁, t₂, pair_sublist mem, rfl⟩

theorem sights_fees (valid : renter ≠ 0) :
    ((Survey.fees renter).query.task terms).Follows (sighted terms.medium may) seen
      ((Survey.fees renter).Ends terms may) := by
  refine Task.follows_bind.2 (follows_run.2 ?_)
  rw [Terms.listFees, if_neg valid]
  refine follows_bind.2 (sights_feesOfRenter.mono ?_ fun _ _ => id)
  rintro _ seen ⟨t₁, t₂, sub, rfl⟩
  refine follows_bind.2 (sights_now fun shop t hmay => follows_bind.2 (follows_ofExcept.2 ?_))
  have shown : ∀ rows, (feeRows terms (mixed terms.medium t₁ t₂ (.fees renter)) shop.clock
      renter).map newestFees = rows →
      (Survey.fees renter).Ends terms may (.feeViews rows) (seen ++ [t]) := by
    rintro _ rfl
    refine .shown hmay (sub.trans (List.sublist_append_left ..)) ?_
    rw [result, if_neg valid]
  split
  · next views hviews => exact shown _ (congrArg (·.map newestFees) hviews)
  · next e hviews => exact shown _ (congrArg (·.map newestFees) hviews)

/-- A listing of which something was seen ends as a listing may, whatever else is seen. -/
theorem sights (shop : Shop) (hmay : may shop) (t : Tables) (s : Survey) :
    (s.query.task terms).Follows (sighted terms.medium may) [t, t] (s.Ends terms may) := by
  -- The renter zero has nothing, and nothing is looked up for him.
  have nothing : ∀ {s : Survey} {answer : Answer},
      (∀ t now, answer = s.result terms t now) → s.Ends terms may answer [t, t] :=
    fun h => .shown hmay (.refl [t, t]) (h _ _)
  cases s with
  | items => exact sights_items hmay
  | invoices renter =>
      by_cases zero : renter = 0
      · subst zero
        exact nothing fun t now => rfl
      · exact sights_invoices hmay zero
  | rentals renter =>
      by_cases zero : renter = 0
      · subst zero
        exact nothing fun t now => rfl
      · exact sights_rentals hmay zero
  | fees renter =>
      by_cases zero : renter = 0
      · subst zero
        exact nothing fun t now => rfl
      · exact sights_fees zero

end

/-- By itself, a listing shows its tables. -/
theorem on_eq (s : Survey) : s.on terms t now = some (s.result terms t now) := by
  let alone := Shop.opened (t.keptIn terms.medium) .fresh 0 now
  have store : alone.store = t.keptIn terms.medium := rfl
  obtain ⟨shop, answer, seen, hadvance, same, hends⟩ :=
    Shop.advance_sighted store rfl s.quiet (s.sights alone ⟨rfl, rfl⟩ t)
  rw [on, Shop.run_eq hadvance]
  rcases hends with ⟨call, -, -, shop, ⟨calm, -⟩, fails⟩ | ⟨t₁, t₂, shop, ⟨-, clock⟩, sub, rfl⟩
  · rw [calm] at fails
    cases fails
  · have one : ∀ t' ∈ [t₁, t₂], t' = t := fun t' ht' => by
      simpa using same t' (sub.subset ht')
    obtain rfl := one t₁ List.mem_cons_self
    obtain rfl := one t₂ (List.mem_cons_of_mem _ List.mem_cons_self)
    rw [clock]
    cases s with
    | fees renter => obtain ⟨tariff, _ | _⟩ := terms <;> rfl
    | _ => rfl

/-! ## Mixtures -/

section

variable {renter : RenterId}

/-- The title of an item that was registered before is still the same. -/
theorem titleOf_history (filed : t₁.Filed) (filed' : t₂.Filed) (history : t₁.History t₂)
    {id : ItemId} (registered : t₁.items.contains id) :
    titleOf t₁.items.values id = titleOf t₂.items.values id := by
  obtain ⟨item, hitem⟩ := Option.isSome_iff_exists.1 registered
  obtain ⟨item', hitem', -, title⟩ := history.items id item hitem
  rw [filed.titleOf_eq, filed'.titleOf_eq, Tables.title, Tables.title, hitem, hitem']
  exact title.symm

/-- The listing of a fee does not change if its rental does: a rental that is closed in between
had an unsettled fee before, and has a settled one now. -/
theorem feeView_history (dues : t₂.Dues) (history : t₁.History t₂) {key : FeeId} {fee : Fee}
    (owed : t₂.fees.get? key = some fee) {old rental : Rental}
    (hold : t₁.rentals.get? fee.rentalId = some old)
    (hrental : t₂.rentals.get? fee.rentalId = some rental) :
    terms.tariff.feeView now (terms.medium.fee fee) old =
      terms.tariff.feeView now (terms.medium.fee fee) rental := by
  obtain ⟨_, hlater, id, item, -, start, final⟩ := history.rentals _ old hold
  obtain rfl := Option.some.inj (hlater.symm.trans hrental)
  have settled : (terms.medium.fee fee).isSettled = fee.isSettled := by
    rw [Fee.isSettled, Fee.isSettled, Medium.settlement_fee]
  by_cases due : fee.isSettled = true
  · simp [Tariff.feeView, settled, due, id, item]
  · obtain ⟨row, hrow, still⟩ := dues.due key fee owed (Bool.eq_false_iff.2 due)
    obtain rfl := Option.some.inj (hrow.symm.trans hrental)
    have open' : old.isOpen = true := by
      by_contra closed
      rw [final (Bool.eq_false_iff.2 closed)] at still
      exact closed still
    simp [Tariff.feeView, settled, due, id, item, start, still, open']

/-- The rental under a key, if it is one of the renter. -/
def ownRental (t : Tables) (renter : RenterId) (key : RentalId) : Option Rental :=
  (t.rentals.get? key).filter fun rental => rental.renterId = renter

theorem find?_rentalsOf (filed : t.Filed) (renter : RenterId) (key : RentalId) :
    (rentalsOf renter t.rentals.values).find? (fun rental => rental.id = key) =
      ownRental t renter key :=
  filed.rentals.find?_eq _ _ (fun _ => List.mem_filter) key

/-- A rental of the renter was his before, unless the first look has missed it. -/
theorem ownRental_history (filed' : t₂.Filed) (history : t₁.History t₂)
    (calm : ∀ rental ∈ rentalsOf renter t₂.rentals.values, t₁.rentals.contains rental.id)
    (key : RentalId) :
    (ownRental t₁ renter key = none ∧ ownRental t₂ renter key = none) ∨
      ∃ old rental, ownRental t₁ renter key = some old ∧ ownRental t₂ renter key = some rental ∧
        t₁.rentals.get? key = some old ∧ t₂.rentals.get? key = some rental := by
  cases hold : t₁.rentals.get? key with
  | some old =>
      obtain ⟨rental, hrental, -, -, owner, -⟩ := history.rentals key old hold
      by_cases own : old.renterId = renter
      · right
        exact ⟨old, rental, by simp [ownRental, hold, own],
          by simp [ownRental, hrental, owner, own], rfl, hrental⟩
      · left
        simp [ownRental, hold, hrental, owner, own]
  | none =>
      refine .inl ⟨by simp [ownRental, hold], ?_⟩
      refine Option.eq_none_iff_forall_ne_some.2 fun rental found => ?_
      obtain ⟨hrental, own⟩ := Option.filter_eq_some_iff.1 found
      obtain rfl := filed'.rentals key rental hrental
      have seen := calm rental (List.mem_filter.2 ⟨filed'.rentals.mem_values.2 hrental, own⟩)
      rw [Table.contains, hold] at seen
      cases seen

/-- The renter is shown the same fees if the first look has missed none of his rentals. -/
theorem feeRows_mixed (filed : t₁.Filed) (filed' : t₂.Filed) (dues : t₂.Dues)
    (history : t₁.History t₂)
    (calm : ∀ rental ∈ rentalsOf renter t₂.rentals.values, t₁.rentals.contains rental.id) :
    feeRows terms { t₂ with rentals := t₁.rentals } now renter = feeRows terms t₂ now renter := by
  let view (row : Fee × Rental) := terms.tariff.feeView now row.1 row.2
  have mapped : ∀ rows : List (Fee × Rental), rows.mapM view = (rows.map view).mapM id :=
    fun rows => (List.mapM_map (f := view) (g := id)).symm
  refine (mapped _).trans (Eq.trans (congrArg _ ?_) (mapped _).symm)
  rw [owedRows, owedRows, feesOf, feesOf, List.map_filterMap, List.map_filterMap]
  refine List.filterMap_congr fun read mem => ?_
  obtain ⟨fee, stored, rfl⟩ := List.mem_map.1 mem
  obtain ⟨key, owed⟩ := Table.mem_values.1 stored
  rw [find?_rentalsOf filed, find?_rentalsOf filed', Medium.rentalId_fee]
  rcases ownRental_history filed' history calm fee.rentalId with
    ⟨h₁, h₂⟩ | ⟨old, rental, h₁, h₂, hold, hrental⟩
  · rw [h₁, h₂]
  · rw [h₁, h₂]
    exact congrArg some (feeView_history dues history owed hold hrental)

/-- What was missed alone makes a mixture differ from the later tables. -/
theorem result_mixed (filed : t₁.Filed) (filed' : t₂.Filed) (dues : t₂.Dues)
    (history : t₁.History t₂) (s : Survey) (calm : s.Calm terms.medium t₁ t₂) :
    s.result terms (s.mixed terms.medium t₁ t₂) now = s.result terms t₂ now := by
  obtain ⟨tariff, medium⟩ := terms
  cases s with
  | items => rfl
  | invoices renter => rfl
  | rentals renter =>
      simp only [result, mixed]
      congr 3
      refine List.map_congr_left fun rental mem => ?_
      rw [titleOf_history filed filed' history (calm rental (List.mem_mergeSort.1 mem))]
  | fees renter =>
      cases medium with
      | memory => rfl
      | archive =>
          rw [result, result, mixed, feeRows_mixed filed filed' dues history (calm rfl)]

end

/-! ## Listings on the floor -/

section

variable {ν : Type} [DecidableEq ν]

/-- Whatever has happened at a desk, somebody comes for a listing and is answered, while others are
served. He is neither dropped nor does he come again. -/
structure Answered (accepts : Tariff → Prop) (terms : Terms) (drawn : Series → Nat) (s : Survey)
    (v : ν) (f h : Floor ν Answer) (events : List (Event ν Answer)) (g : Floor ν Answer)
    (answer : Answer) : Prop where
  reached : f.Reached accepts terms drawn
  comes : f.Step (.comes v (s.query.task terms)) h
  run : h.Run events g
  served : ∀ e ∈ events, e.Served terms
  few : ∀ series, drawn series + draws events series < UInt64.size
  bears : ∀ e ∈ events, e.Bears v
  ended : (g.sessions v).bind Session.result? = some answer

/-- The answer is what the listing shows by itself of tables that are there at one time of the
run. -/
def IsSnapshot (terms : Terms) (h : Floor ν Answer) (events : List (Event ν Answer))
    (g : Floor ν Answer) (s : Survey) (answer : Answer) : Prop :=
  ∃ t now, h.Meets terms.medium events [t] g ∧ s.on terms t now = some answer

variable {accepts : Tariff → Prop} {drawn : Series → Nat} {s : Survey} {v : ν}
  {f h g : Floor ν Answer} {events : List (Event ν Answer)} {answer : Answer}

/-- Whoever is answered is told that a call has failed, or is shown a mixture of the tables as they
are at two times between his question and the answer. If the first look has missed nothing that the
renter has rented since, the answer is what the listing shows of the later tables by themselves. A
listing of items or of invoices misses nothing, nor does a listing of fees in memory. -/
theorem Answered.mixes (a : s.Answered accepts terms drawn v f h events g answer) :
    (∃ call ∈ s.calls, answer = s.failed call) ∨
      ∃ t₁ t₂ now, h.Meets terms.medium events [t₁, t₂] g ∧
        s.on terms (s.mixed terms.medium t₁ t₂) now = some answer ∧
        (s.Calm terms.medium t₁ t₂ → s.on terms t₂ now = some answer) := by
  have reached : h.Reached accepts terms drawn :=
    a.reached.step a.comes ⟨.query s.query, rfl⟩ fun series =>
      Nat.lt_of_le_of_lt (Nat.le_add_right ..) (a.few series)
  have present : h.sessions v = some (.start (s.query.task terms)) := by
    cases a.comes with
    | comes => exact Floor.put_sessions_self ..
  obtain ⟨t, last, times, le, dealt⟩ := reached.dealt
    (P := fun t => t.Intact ∧ t.Filed ∧ t.Dues) ⟨.empty, .empty, .empty⟩
    fun _ ⟨intact, filed, dues⟩ deal =>
      ⟨deal.intact intact, deal.filed filed, deal.dues intact dues⟩
  obtain ⟨ts, meets, later, rows, hends⟩ := dealt.sights a.run
    (fun e he => (a.served e he).anybody.dealing _)
    (fun series => Nat.lt_of_le_of_lt (Nat.add_le_add_right (le series) _) (a.few series)) a.bears
    present s.quiet (s.sights f.shop trivial t) a.ended
  have store := dealt.kept.store
  have later : ([t, t] ++ ts).Pairwise Policy.history.Onward :=
    (Policy.history_sound terms.medium).pairwise_twice later
  have rows : ∀ t' ∈ [t, t] ++ ts, t'.Filed ∧ t'.Dues := by
    intro t' ht'
    rcases List.mem_append.1 ht' with ht' | ht'
    · obtain rfl : t' = t := by simpa using ht'
      exact dealt.rows.1.2
    · obtain ⟨_, holds, -⟩ := rows t' ht'
      exact holds.2
  refine hends.imp (fun ⟨call, mem, hanswer, _⟩ => ⟨call, mem, hanswer⟩) ?_
  rintro ⟨t₁, t₂, shop, -, sub, rfl⟩
  have onward : Policy.history.Onward t₁ t₂ :=
    (List.pairwise_cons.1 (later.sublist sub)).1 t₂ List.mem_cons_self
  have first := rows t₁ (sub.subset List.mem_cons_self)
  have second := rows t₂ (sub.subset (List.mem_cons_of_mem _ List.mem_cons_self))
  refine ⟨t₁, t₂, shop.clock, ((meets.now store).now store).sublist sub, on_eq s, fun calm => ?_⟩
  rw [on_eq, result_mixed first.1 second.1 second.2 onward.history s calm]

end

/-! ## Listings that show what was never there -/

section

variable {renter : RenterId}

/-- Which fees a listing shows as paid, whatever the time is. -/
theorem marks_of_fees (valid : renter ≠ 0) {views : List FeeView}
    (shown : (Survey.fees renter).on terms t now = some (.feeViews (.ok views))) :
    (views.map fun view => (view.id, view.paid)).Perm
      ((owedRows terms t renter).map fun row => (row.1.id, row.1.isSettled)) := by
  rw [on_eq, result, if_neg valid] at shown
  have shown := Answer.feeViews.inj (Option.some.inj shown)
  cases hrows : feeRows terms t now renter with
  | error e =>
      rw [hrows] at shown
      cases shown
  | ok rows =>
      rw [hrows] at shown
      obtain rfl := Except.ok.inj shown
      have each := congrArg Except.toOption hrows
      simp only [feeRows, toOption_mapM, toOption_feeView] at each
      have marks : rows.map (fun view => (view.id, view.paid)) =
          (owedRows terms t renter).map fun row => (row.1.id, row.1.isSettled) := by
        rw [← List.forall₂_eq_eq_eq, List.forall₂_map_left_iff, List.forall₂_map_right_iff]
        refine (mapM_eq_some_iff.1 each).flip.imp fun view row hview => ?_
        obtain ⟨amount, -, rfl⟩ := Option.map_eq_some_iff.1 hview
        rfl
      rw [← marks]
      exact (List.mergeSort_perm ..).map _

/-- The titles in a listing of rentals are those of the items that are there. -/
theorem title_of_rentals (valid : renter ≠ 0) {rows : List RentalView}
    (shown : (Survey.rentals renter).on terms t now = some (.rentalViews (.ok rows)))
    {row : RentalView} (mem : row ∈ rows) :
    ∃ rental ∈ rentalsOf renter t.rentals.values,
      row.title = titleOf t.items.values rental.itemId := by
  rw [on_eq, result, if_neg valid] at shown
  obtain rfl := Except.ok.inj (Answer.rentalViews.inj (Option.some.inj shown))
  obtain ⟨rental, listed, rfl⟩ := List.mem_map.1 mem
  exact ⟨rental, List.mem_mergeSort.1 listed, rfl⟩

end

section

open Floor

/-- The floor on which somebody has just come for a listing. -/
def asked (terms : Terms) (f : Floor Nat Answer) (s : Survey) : Floor Nat Answer :=
  f.put 0 f.shop (.start (s.query.task terms))

/-- The rows of a listing of fees or of rentals. -/
def rows? : Answer → Option (List FeeView ⊕ List RentalView)
  | .feeViews (.ok rows) => some (.inl rows)
  | .rentalViews (.ok rows) => some (.inr rows)
  | _ => none

/-- The answer with such rows. -/
def ofRows : List FeeView ⊕ List RentalView → Answer
  | .inl rows => .feeViews (.ok rows)
  | .inr rows => .rentalViews (.ok rows)

theorem eq_of_rows? {answer : Answer} {rows : List FeeView ⊕ List RentalView}
    (h : rows? answer = some rows) : answer = ofRows rows := by
  unfold rows? at h
  split at h
  · rw [← Option.some.inj h, ofRows]
  · rw [← Option.some.inj h, ofRows]
  · cases h

/-- Somebody is answered while others come and take turns with him. -/
theorem answered_among {accepts : Tariff → Prop} {drawn : Series → Nat} {f h : Floor Nat Answer}
    {s : Survey} {ms : List (Move Nat Answer)} {rows : List FeeView ⊕ List RentalView}
    (reached : f.Reached accepts terms drawn) (absent : f.sessions 0 = none)
    (asks : h = s.asked terms f) (serves : ∀ m ∈ ms, m.Serves terms)
    (bears : ∀ m ∈ ms, m.Bears 0) (few : ∀ series, drawn series + ms.length < UInt64.size)
    (shown : (((h.follow ms).2.sessions 0).bind Session.result?).bind rows? = some rows) :
    s.Answered accepts terms drawn 0 f h (h.follow ms).1 (h.follow ms).2 (ofRows rows) where
  reached := reached
  comes := asks ▸ .comes absent
  run := run_follow ..
  served := served_of_serves serves
  few series := Nat.lt_of_le_of_lt (Nat.add_le_add_left (draws_follow_le ..) _) (few series)
  bears := bears_follow bears
  ended := by
    obtain ⟨answer, ended, hrows⟩ := Option.bind_eq_some_iff.1 shown
    rw [ended, eq_of_rows? hrows]

/-! ### A rental without a title -/

/-- An empty desk in memory. -/
def emptyDesk : Floor Nat Answer := ofShop (.opened (.empty .memory) .fresh 100 .epoch)

/-- A renter has just asked for his rentals. -/
def rentalsAsked : Floor Nat Answer := (Survey.rentals 7).asked ⟨.standard, .memory⟩ emptyDesk

/-- When the items have been looked at, an item is registered and rented. -/
def lateItem : List (Move Nat Answer) :=
  servings ⟨.standard, .memory⟩ [(1, .register (.new 5 "Alien")), (2, .call (.rent 7 5))]
    [(0, 2), (1, 8), (2, 20), (0, 2)] []

def lateRental : RentalView := ⟨⟨1, 5, 7, .epoch, none⟩, ""⟩

theorem answered_lateItem :
    (Survey.rentals 7).Answered (Eq .standard) ⟨.standard, .memory⟩ (fun _ => 0) 0 emptyDesk
      rentalsAsked (rentalsAsked.follow lateItem).1 (rentalsAsked.follow lateItem).2
      (.rentalViews (.ok [lateRental])) := by
  have reached : emptyDesk.Reached (Eq .standard) ⟨.standard, .memory⟩ fun _ => 0 :=
    @Reached.opened Nat _ (Eq .standard) ⟨.standard, .memory⟩ rfl 100 .epoch
  have asks : rentalsAsked = (Survey.rentals 7).asked ⟨.standard, .memory⟩ emptyDesk := rfl
  have serves : ∀ m ∈ lateItem, m.Serves ⟨.standard, .memory⟩ := serves_servings
  have bears : ∀ m ∈ lateItem, m.Bears 0 := by decide +kernel
  have room : 0 + lateItem.length < UInt64.size := by decide +kernel
  have shown : (((rentalsAsked.follow lateItem).2.sessions 0).bind Session.result?).bind rows? =
      some (.inr [lateRental]) := by
    decide +kernel
  exact answered_among reached rfl asks serves bears (fun _ => room) shown

/-- Every rental of the renter has a title. -/
def isTitled (renter : RenterId) (store : Store) : Bool :=
  match store.items, store.rentals with
  | .ok titles, .ok lent =>
    (rentalsOf renter lent).all fun rental => titleOf titles rental.itemId ≠ ""
  | _, _ => true

/-- No rental without a title is ever there. -/
theorem lateItem_torn :
    ¬ (Survey.rentals 7).IsSnapshot ⟨.standard, .memory⟩ rentalsAsked
      (rentalsAsked.follow lateItem).1 (rentalsAsked.follow lateItem).2
      (.rentalViews (.ok [lateRental])) := by
  rintro ⟨t, now, meets, shown⟩
  have titled : ∀ store ∈ rentalsAsked.stores lateItem, isTitled 7 store = true := by
    decide +kernel
  have each := titled _ meets.mem_stores
  rw [isTitled, Tables.items_keptIn, Tables.rentals_keptIn] at each
  obtain ⟨rental, mem, title⟩ :=
    title_of_rentals (by decide) shown (List.mem_singleton_self lateRental)
  exact of_decide_eq_true (List.all_eq_true.1 each rental mem) title.symm

/-- The items are as they were when there were none, and the rentals are as they are later. -/
theorem Answered.mixes_lateItem :
    ∃ t₁ t₂ now, rentalsAsked.Meets .memory (rentalsAsked.follow lateItem).1 [t₁, t₂]
        (rentalsAsked.follow lateItem).2 ∧
      (Survey.rentals 7).on ⟨.standard, .memory⟩ ((Survey.rentals 7).mixed .memory t₁ t₂) now =
        some (.rentalViews (.ok [lateRental])) ∧
      ¬ (Survey.rentals 7).Calm .memory t₁ t₂ := by
  rcases answered_lateItem.mixes with ⟨call, -, failed⟩ | ⟨t₁, t₂, now, meets, shown, calm⟩
  · cases failed
  · refine ⟨t₁, t₂, now, meets, shown, fun undisturbed => lateItem_torn ?_⟩
    exact ⟨t₂, now, meets.sublist (.cons _ (.refl _)), calm undisturbed⟩

/-- The renter is shown a rental without a title. The item was registered before it was rented. -/
theorem Answered.not_snapshot :
    (Survey.rentals 7).Answered (Eq .standard) ⟨.standard, .memory⟩ (fun _ => 0) 0 emptyDesk
        rentalsAsked (rentalsAsked.follow lateItem).1 (rentalsAsked.follow lateItem).2
        (.rentalViews (.ok [lateRental])) ∧
      ¬ (Survey.rentals 7).IsSnapshot ⟨.standard, .memory⟩ rentalsAsked
        (rentalsAsked.follow lateItem).1 (rentalsAsked.follow lateItem).2
        (.rentalViews (.ok [lateRental])) :=
  ⟨answered_lateItem, lateItem_torn⟩

/-! ### A payment without the rental before it -/

/-- Two items are registered, and a renter takes one of them. -/
def takesOne : List (Move Nat Answer) :=
  servings ⟨.standard, .archive⟩ [(1, .register (.new 1 "Heat")), (2, .register (.new 2 "Ran")),
    (3, .call (.rent 7 1))] [(1, 8), (2, 8), (3, 20)] []

/-- The floor after that, in the medium. -/
def oneTaken (medium : Medium) : Floor Nat Answer :=
  ((ofShop (.opened (.empty medium) .fresh 100 .epoch)).follow takesOne).2

theorem oneTaken_archive : oneTaken .archive = (oneTaken .memory).archived := by
  have plain : ∀ store ∈ emptyDesk.stores takesOne, store.IsPlain := by decide +kernel
  have opened : oneTaken .archive = (emptyDesk.archived.follow takesOne).2 := rfl
  rw [opened, (follow_archived plain).1, oneTaken, emptyDesk]

theorem reached_oneTaken : ∃ drawn, (∀ series, drawn series ≤ takesOne.length) ∧
    (oneTaken .archive).Reached (Eq .standard) ⟨.standard, .archive⟩ drawn := by
  have room : takesOne.length < UInt64.size := by decide +kernel
  refine ⟨_, fun series => ?_, .of_sitting ⟨.standard, .archive⟩ rfl 100 .epoch room⟩
  rw [Nat.zero_add]
  exact draws_follow_le ..

/-- The renter has just asked for his fees. -/
def feesAsked (medium : Medium) : Floor Nat Answer :=
  (Survey.fees 7).asked ⟨.standard, .archive⟩ (oneTaken medium)

/-- When the rentals have been looked at, he takes the other item, and then brings the first one
back. -/
def swap : List (Move Nat Answer) :=
  servings ⟨.standard, .archive⟩ [(4, .call (.rent 7 2)), (5, .call (.pay 1 7))]
    [(0, 2), (4, 20), (5, 30), (0, 2)] []

def paidFee : FeeView := ⟨1, 1, 1, Tariff.standard.baseFee, closingReason .zero, true⟩

/-- Which fees of the renter are there, and whether they are paid. -/
def marks (renter : RenterId) (store : Store) : List (FeeId × Bool) :=
  match store.fees, store.rentals with
  | .ok owed, .ok lent =>
    (feesOf (rentalsOf renter lent) owed).map fun row => (row.1.id, row.1.isSettled)
  | _, _ => []

theorem marks_archived {store : Store} (plain : store.IsPlain) (renter : RenterId) :
    marks renter store.archived = marks renter store := by
  rw [marks, marks, Store.fees_archived plain, Store.rentals_archived]

/-- The renter is shown one paid fee and no other one. But when the first fee is paid, there is
another one. -/
theorem shown_swap :
    ((((feesAsked .archive).follow swap).2.sessions 0).bind Session.result?).bind rows? =
        some (.inl [paidFee]) ∧
      ∀ store ∈ (feesAsked .archive).stores swap, marks 7 store ≠ [(1, true)] := by
  -- In memory it takes less time to see what happens.
  have plain : ∀ store ∈ (feesAsked .memory).stores swap, store.IsPlain := by decide +kernel
  have twins : feesAsked .archive = (feesAsked .memory).archived := by
    rw [feesAsked, oneTaken_archive]
    rfl
  obtain ⟨followed, stores⟩ := follow_archived plain
  rw [twins, followed, stores]
  have shown : ((((feesAsked .memory).follow swap).2.sessions 0).bind Session.result?).bind rows? =
      some (.inl [paidFee]) := by
    decide +kernel
  have others : ∀ store ∈ (feesAsked .memory).stores swap, marks 7 store ≠ [(1, true)] := by
    decide +kernel
  refine ⟨shown, List.forall_mem_map.2 fun store mem => ?_⟩
  rw [marks_archived (plain store mem)]
  exact others store mem

/-- In an archive a listing of fees can show what was never there, too. -/
theorem Answered.not_snapshot_swap :
    (∃ drawn, (Survey.fees 7).Answered (Eq .standard) ⟨.standard, .archive⟩ drawn 0
        (oneTaken .archive) (feesAsked .archive) ((feesAsked .archive).follow swap).1
        ((feesAsked .archive).follow swap).2 (.feeViews (.ok [paidFee]))) ∧
      ¬ (Survey.fees 7).IsSnapshot ⟨.standard, .archive⟩ (feesAsked .archive)
        ((feesAsked .archive).follow swap).1 ((feesAsked .archive).follow swap).2
        (.feeViews (.ok [paidFee])) := by
  obtain ⟨shown, others⟩ := shown_swap
  constructor
  · obtain ⟨drawn, le, reached⟩ := reached_oneTaken
    have absent : (oneTaken .archive).sessions 0 = none := by
      rw [oneTaken_archive]
      exact Option.isNone_iff_eq_none.1 (by decide +kernel)
    have asks : feesAsked .archive =
        (Survey.fees 7).asked ⟨.standard, .archive⟩ (oneTaken .archive) := rfl
    have serves : ∀ m ∈ swap, m.Serves ⟨.standard, .archive⟩ := serves_servings
    have bears : ∀ m ∈ swap, m.Bears 0 := by decide +kernel
    have room : takesOne.length + swap.length < UInt64.size := by decide +kernel
    have few : ∀ series, drawn series + swap.length < UInt64.size := fun series =>
      Nat.lt_of_le_of_lt (Nat.add_le_add_right (le series) _) room
    exact ⟨drawn, answered_among reached absent asks serves bears few shown⟩
  · rintro ⟨t, now, meets, shown⟩
    have other := others _ meets.mem_stores
    rw [marks, Tables.fees_keptIn, Tables.rentals_keptIn] at other
    exact other (List.singleton_perm.1 (marks_of_fees (by decide) shown)).symm

end

end Survey

end RentalDesk
