import RentalDesk.Proofs.Plain.Undisturbed

/-!
# Listings at any moment

A renter asks for a list while others are at work and calls may fail. A list is looked at without
locks and changes nothing, so the answer depends on the committed rows, the time and the calls that
are made to fail, and on nothing else: `Listing.shown` says what it is, on either medium.
-/

namespace RentalDesk

theorem Task.bind_assoc {α β γ : Type} (t : Task α) (f : α → Task β) (g : β → Task γ) :
    (t.bind f).bind g = t.bind fun a => (f a).bind g := by
  induction t with
  | done a => rfl
  | act action next ih => exact congrArg (Task.act action) (funext ih)
  | acquire key next ih => exact congrArg (Task.acquire key) (funext ih)

/-! ## Operations that only look -/

namespace Operation

/-- The operation changes nothing, whoever is at work, and ends with the result. -/
def Shows {α : Type} (x : Operation α) (shop : Shop) (result : Except Error α) : Prop :=
  ∀ (β : Type) (k : Except Error α → Task β) (writes : WriteSet),
    Session.advance shop writes (x.run.bind k) = Session.advance shop writes (k result)

namespace Shows

variable {α β : Type} {shop : Shop}

theorem pure (a : α) : (Pure.pure a : Operation α).Shows shop (.ok a) := fun _ _ _ => rfl

theorem ofExcept (result : Except Error α) :
    (MonadExcept.ofExcept result : Operation α).Shows shop result := by
  cases result <;> exact fun _ _ _ => rfl

theorem bind {x : Operation α} {f : α → Operation β} {a : α} {result : Except Error β}
    (hx : x.Shows shop (.ok a)) (hf : (f a).Shows shop result) : (x >>= f).Shows shop result := by
  intro γ k writes
  change Session.advance shop writes ((x.run.bind _).bind k) = _
  rw [Task.bind_assoc, hx]
  exact hf γ k writes

theorem bind_error {x : Operation α} {f : α → Operation β} {e : Error}
    (hx : x.Shows shop (.error e)) : (x >>= f).Shows shop (.error e) := by
  intro γ k writes
  change Session.advance shop writes ((x.run.bind _).bind k) = _
  rw [Task.bind_assoc, hx]
  rfl

theorem look {what : Look} {rows : what.Answer} (h : shop.look what = .ok rows) :
    (Operation.look what).Shows shop (.ok rows) := by
  rw [← h]
  exact fun β k writes => ofExcept (shop.look what) β k writes

theorem now : (perform .now).Shows shop (.ok shop.clock) := fun _ _ _ => rfl

/-- A call that is made to fail does not look. -/
theorem checked (call : StoreCall) {x : Operation α} {result : Except Error α}
    (hx : x.Shows shop result) : (Operation.checked call x).Shows shop
      (if shop.failing.contains call then .error (.storage (.injected call)) else result) := by
  have fails : (Operation.fails call).Shows shop (.ok (shop.failing.contains call)) :=
    fun _ _ _ => rfl
  split
  · next h =>
      rw [h] at fails
      exact bind_error (fails.bind fun _ _ _ => rfl)
  · next h =>
      rw [Bool.not_eq_true] at h
      rw [h] at fails
      exact bind (fails.bind (pure ())) hx

/-- A desk answers a request that only looks at once, and stays as it is. -/
theorem run {x : Operation α} {result : Except Error α} (hx : x.Shows shop result)
    (answer : Except Error α → β) :
    shop.run (x.run >>= fun result => Pure.pure (answer result)) = (shop, some (answer result)) :=
  Shop.run_eq (hx _ _ .empty)

end Shows

end Operation

/-! ## Lists -/

/-- The lists that a renter can ask for. -/
inductive Listing where
  | fees
  | rentals
  | invoices

namespace Listing

def command (renter : RenterId) : Listing → Command
  | .fees => .listFees renter
  | .rentals => .listRentals renter
  | .invoices => .listInvoices renter

/-- The store calls that a list is made of. -/
def calls : Listing → List StoreCall
  | .fees => [.feesOfRenter]
  | .rentals => [.items, .rentalsOfRenter]
  | .invoices => [.invoicesOfRenter]

end Listing

namespace Tables

/-- The fees of a renter as they are read of the medium, with their rentals, by descending
identifier. -/
def owedIn (t : Tables) (medium : Medium) (renter : RenterId) : List (Fee × Rental) :=
  (t.owed renter).map fun row => (medium.fee row.1, row.2)

/-- The invoices of a renter as they are read of the medium, by descending identifier. -/
def paidIn (t : Tables) (medium : Medium) (renter : RenterId) : List Invoice :=
  (t.paid renter).map medium.invoice

theorem Filed.owedIn_pairwise {t : Tables} (h : t.Filed) (medium : Medium) (renter : RenterId) :
    (t.owedIn medium renter).Pairwise fun a b => b.1.id < a.1.id := by
  refine List.pairwise_map.2 ((h.owed_pairwise renter).imp fun hlt => ?_)
  rwa [Medium.id_fee, Medium.id_fee]

/-- The fees of a renter as a look at the medium joins them. -/
theorem Filed.feesOf_medium {t : Tables} (h : t.Filed) (medium : Medium) (renter : RenterId) :
    feesOf (rentalsOf renter t.rentals.values) (t.fees.values.map medium.fee) =
      (t.owedIn medium renter).reverse := by
  rw [owedIn, ← List.map_reverse, ← h.feesOf_eq, feesOf, feesOf, List.filterMap_map,
    List.map_filterMap]
  congr 1
  funext fee
  simp only [Function.comp_apply, Medium.rentalId_fee, Option.map_map]
  rfl

theorem Filed.newestInvoices_medium {t : Tables} (h : t.Filed) (medium : Medium)
    (renter : RenterId) :
    newestInvoices (invoicesOf renter (t.invoices.values.map medium.invoice)) =
      t.paidIn medium renter := by
  have hread : invoicesOf renter (t.invoices.values.map medium.invoice) =
      (invoicesOf renter t.invoices.values).map medium.invoice := by
    rw [invoicesOf, invoicesOf, List.filter_map]
    congr 2
    funext invoice
    rw [Function.comp_apply, Medium.renterId_invoice]
  have ascending : ((invoicesOf renter t.invoices.values).map medium.invoice).Pairwise
      fun a b => a.id < b.id := by
    refine List.pairwise_map.2 ((h.invoices.values_pairwise.filter _).imp fun hlt => ?_)
    rwa [Medium.id_invoice, Medium.id_invoice]
  rw [hread, newestInvoices, mergeSort_eq_reverse ascending, paidIn, paid, List.filter_reverse,
    List.map_reverse, invoicesOf]

section

variable {t : Tables} {medium : Medium} {renter : RenterId}

theorem mem_lent (h : t.Filed) {rental : Rental} : rental ∈ t.lent renter ↔
    (t.keptIn medium).rental? rental.id = .ok (some rental) ∧ rental.renterId = renter := by
  rw [lent, List.mem_insertionSort, List.mem_filter, decide_eq_true_eq, h.rentals.mem_values,
    rental?_keptIn, Except.ok.injEq]

theorem mem_owedIn (h : t.Filed) {row : Fee × Rental} : row ∈ t.owedIn medium renter ↔
    (t.keptIn medium).fee? row.1.id = .ok (some row.1) ∧
      (t.keptIn medium).rental? row.1.rentalId = .ok (some row.2) ∧ row.2.renterId = renter := by
  rw [owedIn, List.mem_map, fee?_keptIn, rental?_keptIn, Except.ok.injEq, Except.ok.injEq,
    Option.map_eq_some_iff]
  constructor
  · rintro ⟨⟨fee, rental⟩, hrow, rfl⟩
    obtain ⟨hfee, hrental, owner⟩ := h.mem_owed.1 hrow
    rw [Medium.id_fee, Medium.rentalId_fee]
    exact ⟨⟨fee, hfee, rfl⟩, hrental, owner⟩
  · rintro ⟨⟨fee, hfee, hread⟩, hrental, owner⟩
    refine ⟨(fee, row.2), h.mem_owed.2 ⟨?_, ?_, owner⟩, Prod.ext hread rfl⟩
    · rwa [← hread, Medium.id_fee] at hfee
    · rwa [← hread, Medium.rentalId_fee] at hrental

theorem mem_paidIn {invoice : Invoice} : invoice ∈ t.paidIn medium renter ↔
    (∃ rows, (t.keptIn medium).invoices = .ok rows ∧ invoice ∈ rows) ∧
      invoice.renterId = renter := by
  simp only [paidIn, paid, invoices_keptIn, Except.ok.injEq, exists_eq_left', List.mem_map,
    List.mem_filter, List.mem_reverse, decide_eq_true_eq]
  constructor
  · rintro ⟨row, ⟨hrow, owner⟩, rfl⟩
    exact ⟨⟨row, hrow, rfl⟩, (medium.renterId_invoice row).trans owner⟩
  · rintro ⟨⟨row, hrow, rfl⟩, owner⟩
    exact ⟨row, ⟨hrow, (medium.renterId_invoice row).symm.trans owner⟩, rfl⟩

theorem Filed.paidIn_pairwise (h : t.Filed) (medium : Medium) (renter : RenterId) :
    (t.paidIn medium renter).Pairwise fun a b => b.id < a.id := by
  refine List.pairwise_map.2 (((List.pairwise_reverse.2 h.invoices.values_pairwise).filter _).imp
    fun hlt => ?_)
  rwa [Medium.id_invoice, Medium.id_invoice]

end

end Tables

namespace Listing

variable (terms : Terms) (t : Tables) (now : Instant) (failing : List StoreCall)
  (renter : RenterId)

/-- What a list shows if no call fails. -/
def reply : Listing → Reply
  | .fees => ((t.owedIn terms.medium renter).mapM fun row =>
      PlainDesk.view? terms.tariff now row.1 row.2).elim .listFailed .fees
  | .rentals => .rentals ((t.lent renter).map fun rental => ⟨rental, t.title rental.itemId⟩)
  | .invoices => .invoices (t.paidIn terms.medium renter)

/-- A list without rows. -/
def nothing : Listing → Reply
  | .fees => .fees []
  | .rentals => .rentals []
  | .invoices => .invoices []

/-- What a renter is answered who asks for a list. -/
def shown (l : Listing) : Reply :=
  if renter = 0 then l.nothing
  else if l.calls.any failing.contains then .listFailed
  else l.reply terms t now renter

end Listing

namespace Shop

variable {terms : Terms} {shop : Shop} {t : Tables}

open Operation

theorem shows_feesOfRenter (store : shop.store = t.keptIn terms.medium) (renter : RenterId) :
    (terms.feesOfRenter renter).Shows shop
      (if shop.failing.contains .feesOfRenter then .error (.storage (.injected .feesOfRenter))
        else .ok (feesOf (rentalsOf renter t.rentals.values)
          (t.fees.values.map terms.medium.fee))) := by
  refine .checked .feesOfRenter ?_
  have hrentals : shop.look .rentals = .ok t.rentals.values := by
    rw [look, store, Tables.rentals_keptIn]
  have hfees : shop.look .fees = .ok (t.fees.values.map terms.medium.fee) := by
    rw [look, store, Tables.fees_keptIn]
  have hledger : shop.look .ledger =
      .ok (t.fees.values.map terms.medium.fee, t.rentals.values) := by
    rw [look, store, Tables.fees_keptIn, Tables.rentals_keptIn]
    rfl
  obtain ⟨tariff, medium⟩ := terms
  cases medium with
  | memory => exact (Shows.look hledger).bind (.pure _)
  | archive => exact (Shows.look hrentals).bind ((Shows.look hfees).bind (.pure _))

theorem shows_listFees (store : shop.store = t.keptIn terms.medium) (filed : t.Filed)
    (renter : RenterId) :
    ∃ rows, (terms.listFees renter).Shows shop rows ∧
      .ofRows .fees rows = Listing.fees.shown terms t shop.clock shop.failing renter := by
  have hfees := shows_feesOfRenter store renter
  simp only [Terms.listFees, Listing.shown, Listing.calls, List.any_cons, List.any_nil,
    Bool.or_false]
  by_cases hrenter : renter = 0
  · simp only [hrenter, if_true]
    exact ⟨_, .pure [], rfl⟩
  simp only [hrenter, if_false]
  by_cases fails : shop.failing.contains .feesOfRenter
  · rw [if_pos fails] at hfees ⊢
    exact ⟨_, hfees.bind_error, rfl⟩
  rw [if_neg fails, filed.feesOf_medium] at hfees
  rw [if_neg fails, Listing.reply, ← ofRows_fees (filed.owedIn_pairwise terms.medium renter)]
  generalize hviews : (List.mapM _ _ : Except Error (List FeeView)) = views
  have hshows : (MonadExcept.ofExcept views : Operation _).Shows shop views := .ofExcept views
  cases views with
  | ok rows =>
      refine ⟨_, hfees.bind (Shows.now.bind ?_), rfl⟩
      rw [hviews]
      exact hshows.bind (.pure _)
  | error e =>
      refine ⟨_, hfees.bind (Shows.now.bind ?_), rfl⟩
      rw [hviews]
      exact hshows.bind_error

theorem shows_listRentals (store : shop.store = t.keptIn terms.medium) (filed : t.Filed)
    (renter : RenterId) :
    ∃ rows, (listRentals renter).Shows shop rows ∧
      .ofRows .rentals rows = Listing.rentals.shown terms t shop.clock shop.failing renter := by
  have hitems : shop.look .items = .ok t.items.values := by
    rw [look, store, Tables.items_keptIn]
  have hrentals : shop.look .rentals = .ok t.rentals.values := by
    rw [look, store, Tables.rentals_keptIn]
  have items := Shows.checked .items (Shows.look hitems)
  have rentals : (rentalsOfRenter renter).Shows shop
      (if shop.failing.contains .rentalsOfRenter then
        .error (.storage (.injected .rentalsOfRenter))
      else .ok (rentalsOf renter t.rentals.values)) :=
    .checked .rentalsOfRenter ((Shows.look hrentals).bind (.pure _))
  simp only [listRentals, Listing.shown, Listing.calls, List.any_cons, List.any_nil, Bool.or_false,
    Bool.or_eq_true]
  by_cases hrenter : renter = 0
  · simp only [hrenter, if_true]
    exact ⟨_, .pure [], rfl⟩
  simp only [hrenter, if_false]
  by_cases fails : shop.failing.contains .items
  · rw [if_pos fails] at items
    rw [if_pos (.inl fails)]
    exact ⟨_, items.bind_error, rfl⟩
  rw [if_neg fails] at items
  by_cases fails' : shop.failing.contains .rentalsOfRenter
  · rw [if_pos fails'] at rentals
    rw [if_pos (.inr fails')]
    exact ⟨_, items.bind rentals.bind_error, rfl⟩
  rw [if_neg fails'] at rentals
  rw [if_neg (not_or.2 ⟨fails, fails'⟩)]
  refine ⟨_, items.bind (rentals.bind (.pure _)), ?_⟩
  rw [filed.newestRentals_eq]
  simp only [filed.titleOf_eq]
  rfl

theorem shows_listInvoices (store : shop.store = t.keptIn terms.medium) (filed : t.Filed)
    (renter : RenterId) :
    ∃ rows, (listInvoices renter).Shows shop rows ∧
      .ofRows .invoices rows = Listing.invoices.shown terms t shop.clock shop.failing renter := by
  have hinvoices : shop.look .invoices = .ok (t.invoices.values.map terms.medium.invoice) := by
    rw [look, store, Tables.invoices_keptIn]
  have invoices : (invoicesOfRenter renter).Shows shop
      (if shop.failing.contains .invoicesOfRenter then
        .error (.storage (.injected .invoicesOfRenter))
      else .ok (invoicesOf renter (t.invoices.values.map terms.medium.invoice))) :=
    .checked .invoicesOfRenter ((Shows.look hinvoices).bind (.pure _))
  simp only [listInvoices, Listing.shown, Listing.calls, List.any_cons, List.any_nil,
    Bool.or_false]
  by_cases hrenter : renter = 0
  · simp only [hrenter, if_true]
    exact ⟨_, .pure [], rfl⟩
  simp only [hrenter, if_false]
  by_cases fails : shop.failing.contains .invoicesOfRenter
  · rw [if_pos fails] at invoices ⊢
    exact ⟨_, invoices.bind_error, rfl⟩
  rw [if_neg fails] at invoices ⊢
  refine ⟨_, invoices.bind (.pure _), ?_⟩
  rw [filed.newestInvoices_medium]
  rfl

/-- A renter who asks for a list is answered with what is shown of it, and nothing changes. -/
theorem run_listing (store : shop.store = t.keptIn terms.medium) (filed : t.Filed) (l : Listing)
    (renter : RenterId) : shop.run (terms.answer (l.command renter)) =
      (shop, some (l.shown terms t shop.clock shop.failing renter)) := by
  cases l with
  | fees =>
      obtain ⟨rows, shows, hshown⟩ := shows_listFees store filed renter
      rw [← hshown]
      exact shows.run (Reply.ofRows Reply.fees)
  | rentals =>
      obtain ⟨rows, shows, hshown⟩ := shows_listRentals store filed renter
      rw [← hshown]
      exact shows.run (Reply.ofRows Reply.rentals)
  | invoices =>
      obtain ⟨rows, shows, hshown⟩ := shows_listInvoices store filed renter
      rw [← hshown]
      exact shows.run (Reply.ofRows Reply.invoices)

/-- What a line is answered with at some time while some calls are made to fail, if nobody else
moves meanwhile. -/
def replyTo (shop : Shop) (terms : Terms) (clock : Instant) (failing : List StoreCall)
    (line : List Char) : Option Reply :=
  ({ shop with clock, failing }.run (terms.answerLine line)).2

theorem replyTo_listing (store : shop.store = t.keptIn terms.medium) (filed : t.Filed)
    (clock : Instant) (failing : List StoreCall) {line : List Char} {l : Listing}
    {renter : RenterId} (asks : Command.parse line = .ok (l.command renter)) :
    shop.replyTo terms clock failing line = some (l.shown terms t clock failing renter) := by
  let atClock : Shop := { shop with clock, failing }
  have store : atClock.store = t.keptIn terms.medium := store
  rw [replyTo, Terms.answerLine, asks]
  exact congrArg Prod.snd (run_listing store filed l renter)

end Shop

end RentalDesk
