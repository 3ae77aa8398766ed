import RentalDesk.Proofs.Dealing.Reached
import RentalDesk.Proofs.Listed
import RentalDesk.Proofs.Plain.Refinement

/-!
# Renters by themselves

What a renter is shown depends on the rows of this renter, the titles of what this renter has
rented, the prices and the time. A deal that is made for somebody else leaves these rows as they
are: what it puts in their place or adds to them names the other renter, or refers to a rental of
the other renter. So nobody's lists change by what others do, and whoever pays for somebody else is
told no more than that the fee is not his.
-/

namespace RentalDesk

/-! ## The rows of a renter -/

namespace Tables

/-- Of a renter, both hold the same rentals with the same titles, the same fees for them, and the
same invoices. -/
structure SameFor (renter : RenterId) (t t' : Tables) : Prop where
  rentals : ∀ id rental, rental.renterId = renter →
    (t.rentals.get? id = some rental ↔ t'.rentals.get? id = some rental)
  fees : ∀ id fee rental, t.rentals.get? fee.rentalId = some rental → rental.renterId = renter →
    (t.fees.get? id = some fee ↔ t'.fees.get? id = some fee)
  invoices : ∀ id invoice, invoice.renterId = renter →
    (t.invoices.get? id = some invoice ↔ t'.invoices.get? id = some invoice)
  titles : ∀ id rental, t.rentals.get? id = some rental → rental.renterId = renter →
    (t.items.get? rental.itemId).map Item.title = (t'.items.get? rental.itemId).map Item.title

namespace SameFor

variable {renter : RenterId} {t t' t'' : Tables}

theorem refl (renter : RenterId) (t : Tables) : t.SameFor renter t :=
  ⟨fun _ _ _ => .rfl, fun _ _ _ _ _ => .rfl, fun _ _ _ => .rfl, fun _ _ _ _ => rfl⟩

theorem trans (h : t.SameFor renter t') (h' : t'.SameFor renter t'') : t.SameFor renter t'' where
  rentals id rental owner := (h.rentals id rental owner).trans (h'.rentals id rental owner)
  fees id fee rental lent owner :=
    (h.fees id fee rental lent owner).trans
      (h'.fees id fee rental ((h.rentals _ rental owner).1 lent) owner)
  invoices id invoice owner := (h.invoices id invoice owner).trans (h'.invoices id invoice owner)
  titles id rental lent owner :=
    (h.titles id rental lent owner).trans
      (h'.titles id rental ((h.rentals _ rental owner).1 lent) owner)

end SameFor

/-- A row that is put away keeps a row of somebody else where it is. -/
theorem get?_insert_iff {α : Type} {t : Table UInt64 α} {key id : UInt64} {row other : α}
    (new : row ≠ other) (old : t.get? key ≠ some other) :
    t.get? id = some other ↔ (t.insert key row).get? id = some other := by
  rw [Table.get?_insert]
  split
  · next hid =>
      rw [hid]
      exact ⟨fun h => absurd h old, fun h => absurd (Option.some.inj h) new⟩
  · exact .rfl

/-- An item keeps its title when it is lent or comes back. -/
theorem title_insert {t : Tables} {item : Item} (found : t.items.get? item.id = some item)
    (available : Bool) (id : ItemId) : (t.items.get? id).map Item.title =
      ((t.items.insert item.id { item with available }).get? id).map Item.title := by
  rw [Table.get?_insert]
  split
  · next hid => rw [hid, found, Option.map_some, Option.map_some]
  · rfl

namespace Deal

variable {terms : Terms} {t t' : Tables} {renter? : Option RenterId} {renter : RenterId}

/-- What somebody else has rented is not a rental of the renter. -/
theorem foreign_of_lent {key : RentalId} {rental : Rental} (lent : t.rentals.get? key = some rental)
    (owner : rental.renterId ≠ renter) :
    ∀ found, t.rentals.get? key = some found → found.renterId ≠ renter := by
  intro found hfound
  rwa [← Option.some.inj (lent.symm.trans hfound)]

/-- A deal that is not made for the renter leaves the rows of the renter as they are. -/
theorem sameFor (deal : t.Deal terms renter? t') (intact : t.Intact)
    (other : renter? ≠ some renter) : t.SameFor renter t' := by
  cases deal with
  | @registered _ item new =>
      refine ⟨fun _ _ _ => .rfl, fun _ _ _ _ _ => .rfl, fun _ _ _ => .rfl, ?_⟩
      intro id rental lent _
      have shelved := intact.shelved id rental lent
      change _ = ((t.items.insert item.id item).get? rental.itemId).map Item.title
      rw [Table.get?_insert, if_neg]
      intro hid
      rw [hid, Table.contains, new] at shelved
      cases shelved
  | @lent c lender item _ found _ rentalNew feeNew =>
      have hne : lender ≠ renter := fun h => other (congrArg some h)
      refine ⟨fun id row owner => get?_insert_iff ?_ ?_, fun id row rental lent owner =>
        get?_insert_iff ?_ ?_, fun _ _ _ => .rfl, fun id row _ _ => title_insert found false _⟩
      · rintro rfl
        exact hne owner
      · rw [rentalNew]
        exact (Option.some_ne_none _).symm
      · rintro rfl
        cases rentalNew.symm.trans lent
      · rw [feeNew]
        exact (Option.some_ne_none _).symm
  | @returned c fee rental item amount _ owed _ lent of _ found home _ new =>
      have hne : rental.renterId ≠ renter := fun h => other (congrArg some h)
      have foreign := foreign_of_lent (of ▸ lent) hne
      refine ⟨fun id row owner => get?_insert_iff ?_ ?_, fun id row rental' lent' owner =>
        get?_insert_iff ?_ ?_, fun id row owner => get?_insert_iff ?_ ?_,
        fun id row _ _ => title_insert found true _⟩
      · rintro rfl
        exact hne owner
      · rw [lent]
        rintro ⟨rfl⟩
        exact hne owner
      · rintro rfl
        exact foreign rental' (terms.medium.rentalId_fee fee ▸ lent') owner
      · change t.fees.get? (terms.medium.fee fee).id ≠ _
        rw [Medium.id_fee, owed]
        rintro ⟨rfl⟩
        exact foreign rental' lent' owner
      · rintro rfl
        exact hne owner
      · rw [new]
        exact (Option.some_ne_none _).symm
  | @paid c fee rental _ owed _ lent of _ new =>
      have hne : rental.renterId ≠ renter := fun h => other (congrArg some h)
      have foreign := foreign_of_lent (of ▸ lent) hne
      refine ⟨fun _ _ _ => .rfl, fun id row rental' lent' owner => get?_insert_iff ?_ ?_,
        fun id row owner => get?_insert_iff ?_ ?_, fun _ _ _ _ => rfl⟩
      · rintro rfl
        exact foreign rental' (terms.medium.rentalId_fee fee ▸ lent') owner
      · rw [Medium.id_fee, owed]
        rintro ⟨rfl⟩
        exact foreign rental' lent' owner
      · rintro rfl
        exact hne owner
      · rw [new]
        exact (Option.some_ne_none _).symm

end Deal

end Tables

/-- Of a renter, the same rentals with the same titles, the same fees for them and the same invoices
are read from both stores. -/
structure Store.SameFor (renter : RenterId) (s s' : Store) : Prop where
  rentals : ∀ id rental, rental.renterId = renter →
    (s.rental? id = .ok (some rental) ↔ s'.rental? id = .ok (some rental))
  fees : ∀ id fee rental, s.rental? fee.rentalId = .ok (some rental) → rental.renterId = renter →
    (s.fee? id = .ok (some fee) ↔ s'.fee? id = .ok (some fee))
  invoices : ∀ invoice : Invoice, invoice.renterId = renter →
    ((∃ rows, s.invoices = .ok rows ∧ invoice ∈ rows) ↔
      ∃ rows, s'.invoices = .ok rows ∧ invoice ∈ rows)
  titles : ∀ id rental, s.rental? id = .ok (some rental) → rental.renterId = renter →
    (s.item? rental.itemId).map (Option.map Item.title) =
      (s'.item? rental.itemId).map (Option.map Item.title)

/-- What is the same in the tables is read as the same from the medium that keeps them. -/
theorem Tables.SameFor.keptIn {renter : RenterId} {t t' : Tables} (h : t.SameFor renter t')
    (filed : t.Filed) (filed' : t'.Filed) (medium : Medium) :
    (t.keptIn medium).SameFor renter (t'.keptIn medium) := by
  constructor <;>
    simp only [rental?_keptIn, fee?_keptIn, item?_keptIn, invoices_keptIn, Except.ok.injEq,
      exists_eq_left', List.mem_map, Option.map_eq_some_iff]
  case rentals => exact h.rentals
  case fees =>
    intro id fee rental lent owner
    refine exists_congr fun row => and_congr_left ?_
    rintro rfl
    rw [Medium.rentalId_fee] at lent
    exact h.fees id row rental lent owner
  case invoices =>
    intro invoice owner
    refine exists_congr fun row => and_congr_left ?_
    rintro rfl
    rw [Medium.renterId_invoice] at owner
    rw [filed.invoices.mem_values, filed'.invoices.mem_values]
    exact h.invoices row.id row owner
  case titles =>
    intro id rental lent owner
    exact congrArg Except.ok (h.titles id rental lent owner)

/-! ## What is listed of them -/

/-- Two lists are the same if they have the same members in a strict order. -/
theorem eq_of_strict {α : Type} {r : α → α → Prop} (irrefl : ∀ a, ¬ r a a)
    (asymm : ∀ a b, r a b → ¬ r b a) {rows rows' : List α} (h : rows.Pairwise r)
    (h' : rows'.Pairwise r) (mem : ∀ row, row ∈ rows ↔ row ∈ rows') : rows = rows' := by
  have : Std.Irrefl r := ⟨irrefl⟩
  have : Std.Antisymm r := ⟨fun a b hab hba => absurd hba (asymm a b hab)⟩
  exact h.eq_of_mem_iff h' mem

namespace Store.SameFor

variable {renter : RenterId} {t t' : Tables} {medium medium' : Medium}

section

variable (h : (t.keptIn medium).SameFor renter (t'.keptIn medium')) (filed : t.Filed)
  (filed' : t'.Filed)
include h filed filed'

theorem lent : t.lent renter = t'.lent renter := by
  refine congrArg (List.insertionSort Tables.Precedes) (eq_of_strict
    (fun a => UInt64.lt_irrefl a.id) (fun a b => UInt64.lt_asymm)
    (filed.rentals.values_pairwise.filter _) (filed'.rentals.values_pairwise.filter _)
    fun rental => ?_)
  rw [List.mem_filter, List.mem_filter, filed.rentals.mem_values, filed'.rentals.mem_values]
  refine and_congr_left fun owner => ?_
  have hrental := h.rentals rental.id rental (of_decide_eq_true owner)
  rwa [Tables.rental?_keptIn, Tables.rental?_keptIn, Except.ok.injEq, Except.ok.injEq] at hrental

theorem owed : t.owedIn medium renter = t'.owedIn medium' renter := by
  refine eq_of_strict (fun a => UInt64.lt_irrefl a.1.id) (fun a b => UInt64.lt_asymm)
    (filed.owedIn_pairwise medium renter) (filed'.owedIn_pairwise medium' renter) fun row => ?_
  rw [Tables.mem_owedIn filed, Tables.mem_owedIn filed', and_comm, and_comm (b := _ ∧ _)]
  have hrental : _ ↔ _ := and_congr_left (h.rentals row.1.rentalId row.2)
  rw [← hrental]
  exact and_congr_right fun lent => h.fees row.1.id row.1 row.2 lent.1 lent.2

theorem paid : t.paidIn medium renter = t'.paidIn medium' renter := by
  refine eq_of_strict (fun a => UInt64.lt_irrefl a.id) (fun a b => UInt64.lt_asymm)
    (filed.paidIn_pairwise medium renter) (filed'.paidIn_pairwise medium' renter) fun invoice => ?_
  rw [Tables.mem_paidIn, Tables.mem_paidIn]
  exact and_congr_left (h.invoices invoice)

/-- A renter is shown the same of both. -/
theorem shown (tariff : Tariff) (clock : Instant) (failing : List StoreCall) (l : Listing) :
    l.shown ⟨tariff, medium⟩ t clock failing renter =
      l.shown ⟨tariff, medium'⟩ t' clock failing renter := by
  have titles : ∀ rental ∈ t.lent renter, t.title rental.itemId = t'.title rental.itemId := by
    intro rental hrental
    obtain ⟨lent, owner⟩ := (Tables.mem_lent filed).1 hrental
    have title := h.titles rental.id rental lent owner
    rw [Tables.item?_keptIn, Tables.item?_keptIn] at title
    have title := Except.ok.inj title
    rw [Tables.title, Tables.title]
    cases hitem : t.items.get? rental.itemId <;> cases hitem' : t'.items.get? rental.itemId <;>
      simp_all
  cases l with
  | fees => simp only [Listing.shown, Listing.reply, h.owed filed filed']
  | rentals =>
      have views : (t.lent renter).map (fun row => RentalView.mk row (t.title row.itemId)) =
          (t'.lent renter).map fun row => ⟨row, t'.title row.itemId⟩ := by
        rw [← h.lent filed filed']
        exact List.map_congr_left fun rental hrental => by rw [titles rental hrental]
      simp only [Listing.shown, Listing.reply, views]
  | invoices => simp only [Listing.shown, Listing.reply, h.paid filed filed']

end

end Store.SameFor

/-! ## Fees of others -/

/-- The renter cannot pay the fee: it is not stored, or it is unsettled and owed by another one. -/
def Store.Refuses (s : Store) (id : FeeId) (renter : RenterId) : Prop :=
  s.fee? id = .ok none ∨ ∃ fee rental, s.fee? id = .ok (some fee) ∧ fee.isSettled = false ∧
    s.rental? fee.rentalId = .ok (some rental) ∧ rental.renterId ≠ renter

theorem ok_of_join {ε α : Type} {x : Except ε (Option α)} {a : α} (h : x.toOption.join = some a) :
    x = .ok (some a) := by
  cases x with
  | ok found => exact congrArg Except.ok h
  | error e => cases h

namespace Shop

variable {terms : Terms} {shop : Shop} {t : Tables}

/-- Whoever pays a fee that is not stored, or is owed by another renter, is told that it is not
his. -/
theorem replyTo_pay_refused (store : shop.store = t.keptIn terms.medium) (filed : t.Filed)
    (locks : shop.locks.Serves fun _ : Unit => .none) (clock : Instant) {line : List Char}
    {id : FeeId} {renter : RenterId} (pays : Command.parse line = .ok (.pay id renter))
    (refuses : shop.store.Refuses id renter) :
    shop.replyTo terms clock [] line = some (.pay .notOwner .zero) := by
  let calm : Shop := { shop with clock, failing := [] }
  let d : PlainDesk := ⟨t, shop.sequences⟩
  have quiet : calm.Quiet .empty := ⟨rfl, locks⟩
  have hstore : calm.store = d.tables.keptIn terms.medium := store
  have unknown (h : id = 0 ∨ renter = 0 ∨ t.fees.get? id = none) :
      (calm.run (terms.answer (.pay id renter))).2 = some (.pay .notOwner .zero) :=
    quiet.run_pay_unknown hstore (d := d) rfl h
  rw [replyTo, Terms.answerLine, pays]
  rw [store] at refuses
  simp only [Store.Refuses, Tables.fee?_keptIn, Tables.rental?_keptIn, Except.ok.injEq,
    Option.map_eq_none_iff, Option.map_eq_some_iff] at refuses
  rcases refuses with absent | ⟨fee, rental, ⟨row, owed, rfl⟩, unsettled, lent, owner⟩
  · exact unknown (.inr (.inr absent))
  by_cases invalid : id = 0 ∨ renter = 0
  · exact unknown (invalid.imp_right .inl)
  rw [Medium.rentalId_fee] at lent
  obtain ⟨shop', hrun, -⟩ := quiet.run_pay_found hstore (d := d) rfl filed invalid owed lent
  have unpaid : ¬ (terms.medium.fee row).settlement.isSome = true := Bool.eq_false_iff.1 unsettled
  have refused : d.payFound terms.tariff calm.clock (terms.medium.fee row) rental renter =
      (d, .pay .notOwner .zero) := by
    rw [PlainDesk.payFound, if_neg unpaid, if_pos owner]
  rw [refused] at hrun
  exact congrArg Prod.snd hrun

end Shop

namespace Floor.Reached

open Script

variable {ν : Type} [DecidableEq ν] {accepts : Tariff → Prop} {terms terms' : Terms}
  {drawn drawn' : Series → Nat} {f g : Floor ν Answer} {events : List (Event ν Answer)}
  {renter : RenterId}

theorem sound (reached : f.Reached accepts terms drawn) : ∃ t last, (∀ s, last s ≤ drawn s) ∧
    f.Kept .history terms.medium t last ∧ t.Numbered ∧ t.Intact ∧ t.Filed :=
  reached.keeps (P := fun t => t.Intact ∧ t.Filed) ⟨.empty, .empty⟩
    fun _ rows deal => ⟨deal.intact rows.1, deal.filed rows.2⟩

/-- While nobody is served for a renter, the rows of the renter stay the same. -/
theorem sameFor (reached : f.Reached accepts terms drawn) (idle : ∀ v, f.sessions v = none)
    (run : f.Run events g) (served : ∀ e ∈ events, e.ServedFor terms (· ≠ some renter))
    (few : ∀ s, drawn s + draws events s < UInt64.size) :
    f.shop.store.SameFor renter g.shop.store := by
  obtain ⟨t, last, le, kept, numbered, intact, filed⟩ := reached.sound
  obtain ⟨t', kept', filed', -, same⟩ := run.keeps
    (P := fun t' => t'.Filed ∧ t'.Intact ∧ t.SameFor renter t')
    (fun other ⟨filed, intact, same⟩ deal => ⟨deal.filed filed, deal.intact intact,
      same.trans (deal.sameFor intact other)⟩)
    kept idle numbered ⟨filed, intact, .refl renter t⟩ served
    fun s => Nat.lt_of_le_of_lt (Nat.add_le_add_right (le s) _) (few s)
  rw [kept.store, kept'.store]
  exact same.keptIn filed filed' terms.medium

/-- A renter is shown the same at desks with the same prices and the same rows of the renter. -/
theorem replyTo_eq (reached : f.Reached accepts terms drawn)
    (reached' : g.Reached accepts terms' drawn') (prices : terms'.tariff = terms.tariff)
    (same : f.shop.store.SameFor renter g.shop.store) {l : Listing} {line : List Char}
    (asks : Command.parse line = .ok (l.command renter)) (clock : Instant)
    (failing : List StoreCall) : ∃ reply, f.shop.replyTo terms clock failing line = some reply ∧
      g.shop.replyTo terms' clock failing line = some reply := by
  obtain ⟨t, _, -, kept, -, -, filed⟩ := reached.sound
  obtain ⟨t', _, -, kept', -, -, filed'⟩ := reached'.sound
  rw [kept.store, kept'.store] at same
  refine ⟨_, Shop.replyTo_listing kept.store filed clock failing asks, ?_⟩
  rw [Shop.replyTo_listing kept'.store filed' clock failing asks]
  obtain ⟨tariff, medium⟩ := terms
  obtain ⟨tariff', medium'⟩ := terms'
  obtain rfl : tariff' = tariff := prices
  exact congrArg some (same.shown filed filed' tariff' clock failing l).symm

/-- Whatever has happened at a desk, whoever has been served and however often it was opened again,
no renter sees or disturbs another one. What a renter is shown, at any time and whatever calls fail,
stays the same while nobody is served for this renter; and it is the same at any other desk with
these prices that has the same rows of the renter. Unless somebody has asked for rows, whoever pays
an unsettled fee of another renter is answered as if there were no such fee. -/
theorem renters_apart (reached : f.Reached accepts terms drawn) (renter : RenterId) :
    (∀ more g, (∀ v, f.sessions v = none) → f.Run more g →
      (∀ e ∈ more, e.ServedFor terms (· ≠ some renter)) →
      (∀ s, drawn s + draws more s < UInt64.size) →
      ∀ (l : Listing) line clock failing, Command.parse line = .ok (l.command renter) →
        ∃ reply, f.shop.replyTo terms clock failing line = some reply ∧
          g.shop.replyTo terms clock failing line = some reply) ∧
    (∀ terms' drawn' (g : Floor ν Answer), g.Reached accepts terms' drawn' →
      terms'.tariff = terms.tariff → f.shop.store.SameFor renter g.shop.store →
      ∀ (l : Listing) line clock failing, Command.parse line = .ok (l.command renter) →
        ∃ reply, f.shop.replyTo terms clock failing line = some reply ∧
          g.shop.replyTo terms' clock failing line = some reply) ∧
    ((∀ v, f.claims v = .none) → ∀ id other line clock,
      Command.parse line = .ok (.pay id other) → f.shop.store.Refuses id other →
      f.shop.replyTo terms clock [] line = some (.pay .notOwner .zero)) := by
  refine ⟨fun more g idle run served few l line clock failing asks => ?_,
    fun terms' drawn' g reached' prices same l line clock failing asks =>
      reached.replyTo_eq reached' prices same asks clock failing,
    fun vacant id other line clock pays refuses => ?_⟩
  · have reached' := reached.run run (fun e he => (served e he).served) few
    exact reached.replyTo_eq reached' rfl (reached.sameFor idle run served few) asks clock failing
  · obtain ⟨t, _, -, kept, -, -, filed⟩ := reached.sound
    exact Shop.replyTo_pay_refused kept.store filed (kept.serves.vacant vacant) clock pays refuses

end Floor.Reached

/-- Another renter tries to pay for the first one, and wants the same item. -/
def intrusion : List (Move Bool Script.Answer) :=
  servings ⟨.standard, .archive⟩
    [(false, .call (.send "PAY;1;8")), (true, .call (.rent 8 1))] [(false, 40), (true, 30)] []

theorem Floor.Reached.renters_apart_intrusion :
    let f := (Floor.atDawn.follow morning).2
    let g := (f.follow intrusion).2
    let terms : Terms := ⟨.standard, .archive⟩
    (∀ v, f.sessions v = none) ∧ (∀ v, f.claims v = .none) ∧
      f.shop.store.SameFor 7 g.shop.store ∧ f.shop.store.Refuses 1 8 ∧
      (∃ reply, f.shop.replyTo terms .epoch [] "LIST_FEES;7".toList = some reply ∧
        g.shop.replyTo terms .epoch [] "LIST_FEES;7".toList = some reply) ∧
      (∃ reply, f.shop.replyTo terms .epoch [] "LIST_RENTALS;7".toList = some reply ∧
        g.shop.replyTo terms .epoch [] "LIST_RENTALS;7".toList = some reply) ∧
      f.shop.replyTo terms .epoch [] "PAY;1;8".toList = some (.pay .notOwner .zero) := by
  intro f g terms
  let events := (f.follow intrusion).1
  have reached : f.Reached (fun _ => True) terms _ := .at_noon trivial
  have few (s : Series) :
      0 + draws (Floor.atDawn.follow morning).1 s + draws events s < UInt64.size := by
    have first := draws_follow_le Floor.atDawn morning s
    have second := draws_follow_le f intrusion s
    rw [Nat.zero_add]
    exact Nat.lt_of_le_of_lt (Nat.add_le_add first second) (by decide +kernel)
  have served : ∀ e ∈ events, e.ServedFor terms (· ≠ some 7) := servedFor_follow (by decide +kernel)
  have idle : ∀ v, f.sessions v = none := Floor.idle_morning
  have vacant : ∀ v, f.claims v = .none := fun v => by rw [claims, idle v, Option.elim_none]
  have same := reached.sameFor idle (f.run_follow intrusion) served few
  have refuses : f.shop.store.Refuses 1 8 := by
    have owed : (f.shop.store.fee? 1).toOption.join.any (fun fee => fee.isSettled = false ∧
        (f.shop.store.rental? fee.rentalId).toOption.join.any (·.renterId ≠ 8)) = true := by
      decide +kernel
    obtain ⟨fee, hfee, checked⟩ := (Option.any_eq_true ..).1 owed
    obtain ⟨unsettled, lent⟩ := of_decide_eq_true checked
    obtain ⟨rental, hrental, owner⟩ := (Option.any_eq_true ..).1 lent
    exact .inr ⟨fee, rental, ok_of_join hfee, unsettled, ok_of_join hrental,
      of_decide_eq_true owner⟩
  have run := f.run_follow intrusion
  have reached' := reached.run run (fun e he => (served e he).served) few
  obtain ⟨before, elsewhere, refused⟩ := reached.renters_apart 7
  exact ⟨idle, vacant, same, refuses,
    before events g idle run served few .fees _ .epoch [] (by decide +kernel),
    elsewhere terms _ g reached' rfl same .rentals _ .epoch [] (by decide +kernel),
    refused vacant 1 8 _ .epoch (by decide +kernel) refuses⟩

end RentalDesk
