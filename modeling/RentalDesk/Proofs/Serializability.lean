import RentalDesk.Proofs.Order
import RentalDesk.Proofs.Schedule

/-!
# Serializability

Whatever the order of the steps is, the rows in the end are those that the committed errands lead
to when they are done again one after another, in the order of their commits and each with the time
and the identifiers that it had. Each of them ends then as it did among the others. An errand that
was refused would have been refused in the same way alone, on rows that were committed while its
visitor was there.

If everybody wants the same item, or wants to pay the same fee, one gets what all want.
-/

namespace RentalDesk

/-- Whether an errand that ends so has changed the rows. -/
def Outcome.succeeds : Outcome → Bool
  | .registered (.ok new) => new
  | .rented (.ok _) | .settled (.ok _) => true
  | .registered (.error _) | .rented (.error _) | .settled (.error _) => false

/-- Done again at its place among the commits, an entry comes to the outcome and to the rows of the
next place. -/
def Entry.Replays (e : Entry) (tariff : Tariff) (store : Store) (committed : List Entry)
    (place : Nat) (o : Outcome) : Prop :=
  e.alone tariff (serially tariff store (committed.take place)) =
    (serially tariff store (committed.take (place + 1)), some o)

/-- A run comes to the same as its commits one after another. -/
structure Serial (tariff : Tariff) (start : Floor Visit Outcome)
    (events : List (Event Visit Outcome)) (f : Floor Visit Outcome) : Prop where
  store : f.shop.store = serially tariff start.shop.store (chronicle events).committed
  /-- Every commit succeeds when it is done again, also that of a visitor who has left. -/
  replays : ∀ place (e : Entry), (chronicle events).committed[place]? = some e →
    ∃ o : Outcome, o.succeeds = true ∧
      e.Replays tariff start.shop.store (chronicle events).committed place o
  /-- Success is told to those who have committed, and is what the commit comes to again. -/
  succeeds : ∀ v s o, f.sessions v = some s → s.result? = some o → o.succeeds = true →
    ∃ place e, (chronicle events).places v = some place ∧
      (chronicle events).committed[place]? = some e ∧ e.visit = v ∧
      e.Replays tariff start.shop.store (chronicle events).committed place o
  fails : ∀ v s o, f.sessions v = some s → s.result? = some o → o.succeeds = false →
    (chronicle events).places v = none
  /-- A refusal is that of rows which were committed during the call. -/
  refused : ∀ v s o e, f.sessions v = some s → s.result? = some o → o.error? = some e →
    e.isHindrance = false → ∃ t, Saw start events f v t ∧
      ((chronicle events).entry v).alone tariff (.memory t) = (.memory t, some o)

/-- A run in which all errands are of one kind, nobody is dropped, and everybody is done without a
fault of storage. -/
structure Race (among : Errand → Prop) (events : List (Event Visit Outcome))
    (f : Floor Visit Outcome) : Prop where
  errands : ∀ v task, .comes v task ∈ events → among v.errand
  stayed : ∀ v, .leaves v ∉ events
  done : ∀ v s, f.sessions v = some s →
    ∃ o, s.result? = some o ∧ ∀ e, o.error? = some e → e.isStorageFault = false
  joined : ∃ v s, f.sessions v = some s

def OneWins (f : Floor Visit Outcome) (e : Error) : Prop :=
  ∃ v s o, f.sessions v = some s ∧ s.result? = some o ∧ o.succeeds = true ∧
    ∀ w r, w ≠ v → f.sessions w = some r → r.result? = some (w.errand.failed e)

section

variable {tariff : Tariff} {start f g : Floor Visit Outcome} {t₀ t : Tables}
  {events : List (Event Visit Outcome)} {v : Visit} {s : Session Outcome} {o : Outcome}

/-! ## Success -/

theorem Outcome.succeeds_of_error {e : Error} (h : o.error? = some e) : o.succeeds = false := by
  cases o with
  | registered result => cases result <;> first | rfl | cases h
  | rented result => cases result <;> first | rfl | cases h
  | settled result => cases result <;> first | rfl | cases h

theorem Errand.Change.succeeds {c : Circumstances} {errand : Errand} {after : Tables}
    (h : Errand.Change c t errand o after) : o.succeeds = true := by
  cases h <;> rfl

/-- A verdict that leaves the rows alone is no success. -/
theorem Circumstances.not_succeeds_of_verdict {c : Circumstances} {errand : Errand}
    (h : c.verdict t errand = (none, o)) : o.succeeds = false := by
  cases errand with
  | register id title =>
      rw [verdict] at h
      split at h
      · cases h
        rfl
      · cases h
  | rent renter id =>
      rw [verdict] at h
      split at h
      · cases h
      · cases h
        rfl
  | pay id renter =>
      rw [verdict] at h
      split at h
      · cases h
      · cases h
        rfl

theorem Kept.succeeds {committed : List Entry} {place : Nat}
    (h : Kept tariff t₀ committed v place o) : o.succeeds = true := by
  obtain ⟨_, _, _, _, _, -, -, -, -, hverdict⟩ := h
  exact (Errand.change_of_verdict hverdict).succeeds

/-! ## Replaying -/

theorem Kept.replays {committed : List Entry} {place : Nat}
    (h : Kept tariff t₀ committed v place o) (keyed : t₀.Keyed) :
    ∃ e, committed[place]? = some e ∧ e.visit = v ∧
      e.Replays tariff (.memory t₀) committed place o := by
  obtain ⟨earlier, e, later, t, after, rfl, rfl, hvisit, chain, hverdict⟩ := h
  have htake : (earlier ++ e :: later).take (earlier.length + 1) = earlier ++ [e] := by
    rw [List.take_length_add_append, List.take_succ_cons, List.take_zero]
  refine ⟨e, by simp, hvisit, ?_⟩
  rw [Entry.Replays, List.take_left, htake, serially_append, chain.serially_eq keyed,
    e.alone_eq tariff (chain.keyed keyed), hverdict]

theorem Orderly.serial (h : Orderly tariff start t₀ events f t) (quiet : start.Quiet t₀)
    (ordinary : ∀ e ∈ events, e.Ordinary tariff)
    (few : ∀ series, start.reach events series ≤ UInt64.size) :
    Serial tariff start events f := by
  constructor
  case store => rw [h.store, quiet.store, h.chain.serially_eq quiet.keyed]
  case replays =>
    intro place e hplace
    obtain ⟨o, kept⟩ := h.chain.kept hplace
    obtain ⟨e', hplace', -, replays⟩ := kept.replays quiet.keyed
    obtain rfl := Option.some.inj (hplace.symm.trans hplace')
    exact ⟨o, kept.succeeds, quiet.store ▸ replays⟩
  case succeeds =>
    intro v s o present result success
    rcases h.outcome present result with
      ⟨place, hplace, kept⟩ | ⟨-, ⟨t, -, hverdict⟩ | ⟨-, e, -, rfl⟩⟩
    · obtain ⟨e, he, hvisit, replays⟩ := kept.replays quiet.keyed
      exact ⟨place, e, hplace, he, hvisit, quiet.store ▸ replays⟩
    · rw [Circumstances.not_succeeds_of_verdict hverdict] at success
      cases success
    · rw [Outcome.succeeds_of_error (v.errand.error?_failed e)] at success
      cases success
  case fails =>
    intro v s o present result failure
    rcases h.outcome present result with ⟨place, hplace, kept⟩ | ⟨hplace, -⟩
    · rw [kept.succeeds] at failure
      cases failure
    · exact hplace
  case refused =>
    intro v s o e present result error calm
    rcases h.outcome present result with
      ⟨place, -, kept⟩ | ⟨-, ⟨t, saw, hverdict⟩ | ⟨-, e', he', rfl⟩⟩
    · cases (Outcome.succeeds_of_error error).symm.trans kept.succeeds
    · obtain ⟨before, -, chain⟩ := saw.chain quiet ordinary few
      refine ⟨t, saw, ?_⟩
      rw [Entry.alone_eq _ tariff (chain.keyed quiet.keyed)]
      change (_, some (Circumstances.verdict _ t v.errand).2) = _
      rw [show ((chronicle events).entry v).visit.errand = v.errand from rfl, hverdict,
        Option.getD_none]
    · rw [Errand.error?_failed] at error
      rw [Option.some.inj error, calm] at he'
      cases he'

/-! ## Races -/

/-- Who is there has come. -/
theorem Floor.Run.came (run : start.Run events f) (empty : ∀ v, start.sessions v = none)
    (present : f.sessions v = some s) : ∃ task, .comes v task ∈ events := by
  induction run generalizing s with
  | nil =>
      rw [empty] at present
      cases present
  | @snoc events g f e run step ih =>
      have before : ∀ {s}, g.sessions v = some s → ∃ task, .comes v task ∈ events ++ [e] :=
        fun hs => (ih hs).imp fun _ => List.mem_append_left _
      by_cases hv : e.name? = some v
      · cases step with
        | @comes w task =>
            obtain rfl := Option.some.inj hv
            exact ⟨task, List.mem_append_right _ (List.mem_singleton_self _)⟩
        | @does w s₁ s₂ deed shop earlier =>
            obtain rfl := Option.some.inj hv
            exact before earlier
        | @leaves w s₁ earlier =>
            obtain rfl := Option.some.inj hv
            exact before earlier
        | turns => cases hv
      · rw [step.sessions_of_ne hv] at present
        exact before present

/-- Where nobody leaves, who has committed is still there. -/
theorem Floor.Run.stayed (run : start.Run events f) (stayed : ∀ v, .leaves v ∉ events) {e : Entry}
    (he : e ∈ (chronicle events).committed) :
    (∃ s, f.sessions e.visit = some s) ∧ (chronicle events).places e.visit ≠ none := by
  induction run with
  | nil => exact absurd he List.not_mem_nil
  | @snoc events g f event run step ih =>
      have ih := ih fun v hv => stayed v (List.mem_append_left _ hv)
      by_cases hv : event.name? = some e.visit
      · cases step with
        | @comes w task absent =>
            rw [chronicle_append] at he
            obtain ⟨⟨s, present⟩, -⟩ := ih he
            rw [← Option.some.inj hv, absent] at present
            cases present
        | @does w s s' deed shop present step =>
            obtain hw : w = e.visit := Option.some.inj hv
            subst hw
            refine ⟨⟨s', g.put_sessions_self ..⟩, ?_⟩
            cases hdeed : deed.commits with
            | false =>
                rw [chronicle_append, Chronicle.write_of_not_commits _ _ _ hdeed] at he ⊢
                exact (ih he).2
            | true =>
                rw [chronicle_append, Chronicle.write_of_commits _ _ _ hdeed,
                  Chronicle.places_commit_self]
                exact Option.some_ne_none _
        | leaves => exact absurd (List.mem_append_right _ (List.mem_singleton_self _)) (stayed _)
        | turns => cases hv
      · rw [chronicle_append] at he
        rw [step.sessions_of_ne hv, chronicle_append, ((chronicle events).write_of_ne hv).2]
        exact ih (((chronicle events).mem_committed_write he).resolve_right hv)

theorem Error.isStorageFault_of_hindrance {e : Error} (h : e.isHindrance = true) :
    e.isStorageFault = true := by
  cases e with
  | storage cause => rfl
  | lockTimeout key => rfl
  | _ => cases h

/-- The one commit of a chain, on the rows at first. -/
theorem Chain.verdict_of_singleton {e : Entry} (h : Chain tariff t₀ [e] t) :
    ∃ o, (e.circumstances tariff).verdict t₀ e.visit.errand = (some t, o) := by
  rw [← List.nil_append [e]] at h
  obtain ⟨before, o, chain, hverdict⟩ := of_snoc h
  exact ⟨o, chain.eq_of_nil ▸ hverdict⟩

namespace Race

variable {among : Errand → Prop} {e : Error}

theorem among_of_present (race : Race among events f) (run : start.Run events f)
    (quiet : start.Quiet t₀) (present : f.sessions v = some s) : among v.errand := by
  obtain ⟨task, htask⟩ := run.came quiet.empty present
  exact race.errands v task htask

theorem among_of_committed (race : Race among events f) (run : start.Run events f)
    (quiet : start.Quiet t₀) {entry : Entry} (h : entry ∈ (chronicle events).committed) :
    among entry.visit.errand := by
  obtain ⟨⟨s, present⟩, -⟩ := run.stayed race.stayed h
  exact race.among_of_present run quiet present

section

variable (race : Race among events f) (order : Orderly tariff start t₀ events f t)
  (run : start.Run events f) (quiet : start.Quiet t₀)
  (ordinary : ∀ e ∈ events, e.Ordinary tariff)
  (few : ∀ series, start.reach events series ≤ UInt64.size)
  (first : ∀ c errand o, c.tariff = tariff → among errand →
    Circumstances.verdict c t₀ errand = (none, o) →
    ∃ e, o.error? = some e ∧ e.isStorageFault = true)
  (later : ∀ c c' errand errand' t' o, among errand → among errand' →
    Circumstances.verdict c t₀ errand = (some t', o) →
    Circumstances.verdict c' t' errand' = (none, errand'.failed e))

include race order run quiet ordinary few first in
/-- Who has not committed was refused after somebody else had committed. -/
theorem refused (present : f.sessions v = some s) (hplace : (chronicle events).places v = none) :
    ∃ o entries t', s.result? = some o ∧ entries <+: (chronicle events).committed ∧
      entries ≠ [] ∧ Chain tariff t₀ entries t' ∧
      (((chronicle events).entry v).circumstances tariff).verdict t' v.errand = (none, o) := by
  obtain ⟨o, result, calm⟩ := race.done v s present
  rcases order.outcome present result with
    ⟨place, hplace', -⟩ | ⟨-, ⟨t', saw, hverdict⟩ | ⟨-, e, he, rfl⟩⟩
  · cases hplace.symm.trans hplace'
  · obtain ⟨before, ⟨after, rfl⟩, chain⟩ := saw.chain quiet ordinary few
    refine ⟨o, _, t', result, chronicle_committed_append before after, fun hnil => ?_, chain,
      hverdict⟩
    rw [hnil] at chain
    rw [chain.eq_of_nil] at hverdict
    obtain ⟨e, herror, hfault⟩ := first _ _ _ rfl (race.among_of_present run quiet present) hverdict
    rw [calm e herror] at hfault
    cases hfault
  · have hfault := Error.isStorageFault_of_hindrance he
    rw [calm e (v.errand.error?_failed e)] at hfault
    cases hfault

include race order run quiet ordinary few first in
theorem committed_ne_nil : (chronicle events).committed ≠ [] := by
  intro hnil
  obtain ⟨v, s, present⟩ := race.joined
  obtain ⟨o, result, -⟩ := race.done v s present
  rcases order.outcome present result with ⟨place, -, kept⟩ | ⟨hplace, -⟩
  · obtain ⟨earlier, e, later, -, -, hlist, -⟩ := kept
    rw [hnil] at hlist
    simp at hlist
  · obtain ⟨_, entries, _, -, hprefix, hne, -⟩ :=
      race.refused order run quiet ordinary few first present hplace
    rw [hnil] at hprefix
    exact hne (List.prefix_nil.1 hprefix)

include race order run quiet later in
/-- Nobody has committed after the first one. -/
theorem not_committed_twice {winner second : Entry} {rest : List Entry} :
    (chronicle events).committed ≠ winner :: second :: rest := by
  intro hlist
  have among : ∀ entry ∈ winner :: second :: rest, among entry.visit.errand :=
    fun entry h => race.among_of_committed run quiet (hlist ▸ h)
  have hsecond : (chronicle events).committed[1]? = some second := by rw [hlist]; rfl
  obtain ⟨o, kept⟩ := order.chain.kept hsecond
  obtain ⟨earlier, e', later', t', after, hsplit, hlength, -, chain, hverdict⟩ := kept
  obtain ⟨w, rfl⟩ := List.length_eq_one_iff.1 hlength
  obtain ⟨rfl, rfl, -⟩ : winner = w ∧ second = e' ∧ rest = later' := by
    simpa using hlist.symm.trans hsplit
  obtain ⟨_, hwinner⟩ := chain.verdict_of_singleton
  have hfailed := later _ (second.circumstances tariff) _ second.visit.errand _ _
    (among winner (by simp)) (among second (by simp)) hwinner
  cases hverdict.symm.trans hfailed

include race order run quiet ordinary few first later in
/-- Whoever is not the one who has committed was refused on what that one has left behind. -/
theorem result_of_other {winner : Entry} (hcommitted : (chronicle events).committed = [winner])
    (hne : v ≠ winner.visit) (present : f.sessions v = some s) :
    s.result? = some (v.errand.failed e) := by
  obtain ⟨o, result, -⟩ := race.done v s present
  rcases order.outcome present result with ⟨place, -, kept⟩ | ⟨hplace, -⟩
  · obtain ⟨earlier, e', later', _, _, hsplit, -, rfl, -⟩ := kept
    have he' : e' ∈ [winner] := hcommitted ▸ hsplit ▸ List.mem_append_right _ List.mem_cons_self
    exact absurd (congrArg Entry.visit (List.mem_singleton.1 he')) hne
  · obtain ⟨o', entries, t', result', hprefix, hnil, chain, hverdict⟩ :=
      race.refused order run quiet ordinary few first present hplace
    rw [hcommitted] at hprefix
    obtain rfl : entries = [winner] := by
      rcases List.prefix_cons_iff.1 hprefix with rfl | ⟨rest, rfl, hrest⟩
      · exact absurd rfl hnil
      · rw [List.prefix_nil.1 hrest]
    have hmem : winner ∈ (chronicle events).committed :=
      hcommitted ▸ List.mem_singleton_self winner
    obtain ⟨_, hwinner⟩ := chain.verdict_of_singleton
    have hfailed := later _ (((chronicle events).entry v).circumstances tariff) _ v.errand _ _
      (race.among_of_committed run quiet hmem) (race.among_of_present run quiet present) hwinner
    rw [result']
    exact congrArg some (Prod.mk.inj (hverdict.symm.trans hfailed)).2

include race order run quiet ordinary few first later in
/-- Where the first commit makes all others fail, exactly one succeeds. -/
theorem oneWins : OneWins f e := by
  obtain ⟨winner, hcommitted⟩ : ∃ winner, (chronicle events).committed = [winner] := by
    cases hlist : (chronicle events).committed with
    | nil => exact absurd hlist (race.committed_ne_nil order run quiet ordinary few first)
    | cons winner rest =>
        cases rest with
        | nil => exact ⟨winner, rfl⟩
        | cons second rest => exact absurd hlist (race.not_committed_twice order run quiet later)
  have hmem : winner ∈ (chronicle events).committed := hcommitted ▸ List.mem_singleton_self winner
  obtain ⟨⟨s, present⟩, hplace⟩ := run.stayed race.stayed hmem
  obtain ⟨o, result, -⟩ := race.done _ s present
  refine ⟨winner.visit, s, o, present, result, ?_, fun w r hw hr =>
    race.result_of_other order run quiet ordinary few first later hcommitted hw hr⟩
  rcases order.outcome present result with ⟨_, _, kept⟩ | ⟨hnone, -⟩
  · exact kept.succeeds
  · exact absurd hnone hplace

end

end Race

/-! ## Wanting the same -/

theorem Tariff.isStorageFault_of_accrued {base : Decimal} {first last : Instant} {e : Error}
    (h : tariff.accrued base first last = .error e) : e.isStorageFault = true := by
  rw [accrued] at h
  split at h
  · cases h
  · cases h
    rfl

theorem Tables.get?_settle (t : Tables) (fee : Fee) (invoice : Invoice) {id : FeeId}
    (hid : fee.id = id) :
    (t.settle fee invoice).fees.get? id = some { fee with settlement := some invoice.id } := by
  rw [fees_settle, Table.get?_insert, if_pos hid.symm]

theorem Tables.get?_close (t : Tables) (item : Item) (rental : Rental) (now : Instant)
    {id : RentalId} (hid : rental.id = id) :
    (t.close item rental now).rentals.get? id = some { rental with returnedAt := some now } := by
  rw [rentals_close, Table.get?_insert, if_pos hid.symm]

/-- A fee that was paid is settled, and its rental is still there. -/
theorem Errand.Change.settles {c : Circumstances} {id : FeeId} {renter : RenterId} {after : Tables}
    (h : Change c t (.pay id renter) o after) (keyed : t.Keyed) :
    ∃ fee rental, after.fees.get? id = some fee ∧ fee.isSettled = true ∧
      after.rentals.get? fee.rentalId = some rental := by
  cases h with
  | @returned _ _ fee rental item amount owed _ lent =>
      have hid := keyed.fee_id owed
      exact ⟨_, _, Tables.get?_settle _ (c.finalFee fee rental amount) _ hid, rfl,
        Tables.get?_close t item rental c.now (keyed.rental_id lent)⟩
  | paid owed _ lent => exact ⟨_, _, Tables.get?_settle t _ _ (keyed.fee_id owed), rfl, lent⟩

namespace Circumstances

variable {c c' : Circumstances} {after : Tables}

/-- An item that is on the shelf is rented to whoever comes first, -/
theorem rent_of_available {renter : RenterId} {id : ItemId} {item : Item} (hid : id ≠ 0)
    (hrenter : renter ≠ 0) (found : t.items.get? id = some item)
    (available : item.available = true) :
    c.verdict t (.rent renter id) = (some (t.lend item (c.rental renter id) c.fee),
      .rented (.ok ⟨(c.rental renter id).id, c.fee.id, c.fee.amount⟩)) := by
  simp [verdict, rent, hid, hrenter, found, available]

/-- and to nobody after that. -/
theorem rent_of_rented {renter renter' : RenterId} {id : ItemId} (keyed : t.Keyed)
    (hrenter : renter' ≠ 0) (h : c.verdict t (.rent renter id) = (some after, o)) :
    c'.verdict after (.rent renter' id) = (none, .rented (.error (.itemUnavailable id))) := by
  have hid : id ≠ 0 := by
    rintro rfl
    simp [verdict, rent] at h
  cases Errand.change_of_verdict h with
  | rented found available =>
      simp [verdict, rent, hid, hrenter, keyed.item_id found]

/-- A fee that its renter owes is settled, unless it cannot be charged, -/
theorem pay_of_owed {renter : RenterId} {id : FeeId} {fee : Fee} {rental : Rental} (hid : id ≠ 0)
    (hrenter : renter ≠ 0) (owed : t.fees.get? id = some fee) (unsettled : fee.settlement = none)
    (lent : t.rentals.get? fee.rentalId = some rental) (owner : rental.renterId = renter)
    (h : c.verdict t (.pay id renter) = (none, o)) :
    ∃ e, o.error? = some e ∧ e.isStorageFault = true := by
  have valid : ¬ (id = 0 ∨ renter = 0) := not_or.2 ⟨hid, hrenter⟩
  rw [verdict, pay_eq valid owed lent, if_neg (by simp [Fee.isSettled, unsettled]),
    if_neg (Decidable.not_not.2 owner)] at h
  split at h
  · cases h
  · next e herror =>
      cases h
      refine ⟨e, rfl, ?_⟩
      split at herror
      · rw [payOpen] at herror
        split at herror
        · cases herror
          rfl
        · split at herror
          · next haccrued =>
              cases herror
              exact Tariff.isStorageFault_of_accrued haccrued
          · cases herror
      · cases herror

/-- and nobody settles it again. -/
theorem pay_of_settled {renter renter' : RenterId} {id : FeeId} (keyed : t.Keyed) (hid : id ≠ 0)
    (hrenter : renter' ≠ 0) (h : c.verdict t (.pay id renter) = (some after, o)) :
    c'.verdict after (.pay id renter') = (none, .settled (.error (.alreadyPaid id))) := by
  have valid : ¬ (id = 0 ∨ renter' = 0) := not_or.2 ⟨hid, hrenter⟩
  obtain ⟨fee, rental, owed, settled, lent⟩ := (Errand.change_of_verdict h).settles keyed
  rw [verdict, pay_eq valid owed lent, if_pos settled]

end Circumstances

end

/-- Whoever does what in which order: the run comes to the same as its commits one after another.
Of all who want one item on the shelf exactly one gets it, and of all who pay one fee exactly one
settles it. -/
theorem Floor.Run.serializable {tariff : Tariff} {start f : Floor Visit Outcome} {t₀ : Tables}
    {events : List (Event Visit Outcome)} (quiet : start.Quiet t₀) (run : start.Run events f)
    (ordinary : ∀ e ∈ events, e.Ordinary tariff)
    (few : ∀ series, start.reach events series ≤ UInt64.size) :
    Serial tariff start events f ∧
      (∀ id item, id ≠ 0 → t₀.items.get? id = some item → item.available = true →
        Race (fun errand => ∃ renter, renter ≠ 0 ∧ errand = .rent renter id) events f →
        OneWins f (.itemUnavailable id)) ∧
      (∀ id renter fee rental, id ≠ 0 → renter ≠ 0 → t₀.fees.get? id = some fee →
        fee.settlement = none → t₀.rentals.get? fee.rentalId = some rental →
        rental.renterId = renter → Race (· = .pay id renter) events f →
        OneWins f (.alreadyPaid id)) := by
  obtain ⟨t, order⟩ := run.orderly quiet ordinary few
  refine ⟨order.serial quiet ordinary few, ?_, ?_⟩
  · intro id item hid found available race
    refine race.oneWins order run quiet ordinary few ?_ ?_
    · rintro c errand o - ⟨renter, hrenter, rfl⟩ h
      rw [Circumstances.rent_of_available hid hrenter found available] at h
      cases h
    · rintro c c' errand errand' t' o ⟨renter, -, rfl⟩ ⟨renter', hrenter', rfl⟩ h
      exact Circumstances.rent_of_rented quiet.keyed hrenter' h
  · intro id renter fee rental hid hrenter owed unsettled lent owner race
    refine race.oneWins order run quiet ordinary few ?_ ?_
    · rintro c errand o - rfl h
      exact Circumstances.pay_of_owed hid hrenter owed unsettled lent owner h
    · rintro c c' errand errand' t' o rfl rfl h
      exact Circumstances.pay_of_settled quiet.keyed hid hrenter h

/-- The floor of a desk that has one item on its shelf. -/
def Floor.stocked : Floor Visit Outcome :=
  ofShop (Shop.opened (.memory (Tables.empty.putItem (.new 1 "Heat"))) .fresh 100 .epoch)

theorem Floor.quiet_stocked : stocked.Quiet (Tables.empty.putItem (.new 1 "Heat")) where
  store := rfl
  empty _ := rfl
  locks := .empty
  shows := List.not_mem_nil
  keyed := Tables.Keyed.empty.putItem _
  fresh series id h := by
    rw [Tables.uses_putItem, Tables.uses_empty] at h
    cases h

/-- Two visitors want the item. -/
def rivals : List Visit := [⟨1, .rent 7 1⟩, ⟨2, .rent 8 1⟩]

/-- The second one comes to the item while the first one has it locked. -/
def rivalry : List (Move Visit Outcome) :=
  turnsOf .standard rivals (rivals.map (·, 8) ++ rivals.map (·, 30))

theorem rivalry_race :
    Race (fun errand => ∃ renter, renter ≠ 0 ∧ errand = .rent renter 1)
      (Floor.stocked.follow rivalry).1 (Floor.stocked.follow rivalry).2 := by
  have present : ∀ v s, (Floor.stocked.follow rivalry).2.sessions v = some s → v ∈ rivals := by
    intro v s hs
    obtain ⟨task, htask⟩ := (Floor.stocked.run_follow rivalry).came (fun _ => rfl) hs
    rcases mem_follow_turns htask with ⟨w, hw, hcomes⟩ | ⟨w, deed, hdoes⟩
    · cases hcomes
      exact hw
    · cases hdoes
  have calm : ∀ v ∈ rivals, (((Floor.stocked.follow rivalry).2.sessions v).bind
      (·.result?)).any fun o => o.error?.all fun e => !e.isStorageFault := by decide +kernel
  constructor
  case errands =>
    intro v task hcomes
    rcases mem_follow_turns hcomes with ⟨w, hw, hcomes⟩ | ⟨w, deed, hdoes⟩
    · cases hcomes
      simp only [rivals, List.mem_cons, List.not_mem_nil, or_false] at hw
      rcases hw with rfl | rfl
      · exact ⟨7, by decide, rfl⟩
      · exact ⟨8, by decide, rfl⟩
    · cases hdoes
  case stayed =>
    intro v hleaves
    rcases mem_follow_turns hleaves with ⟨w, -, hcomes⟩ | ⟨w, deed, hdoes⟩
    · cases hcomes
    · cases hdoes
  case done =>
    intro v s hs
    have hcalm := calm v (present v s hs)
    rw [hs, Option.bind_some] at hcalm
    obtain ⟨o, result, herrors⟩ := (Option.any_eq_true _ _).1 hcalm
    refine ⟨o, result, fun e he => ?_⟩
    simpa [he] using herrors
  case joined =>
    have here : ((Floor.stocked.follow rivalry).2.sessions ⟨1, .rent 7 1⟩).isSome := by
      decide +kernel
    obtain ⟨s, hs⟩ := Option.isSome_iff_exists.1 here
    exact ⟨_, s, hs⟩

theorem Floor.Run.serializable_rivalry :
    Serial .standard Floor.stocked (Floor.stocked.follow rivalry).1
        (Floor.stocked.follow rivalry).2 ∧
      OneWins (Floor.stocked.follow rivalry).2 (.itemUnavailable 1) := by
  have few : ∀ series, Floor.stocked.reach (Floor.stocked.follow rivalry).1 series ≤
      UInt64.size := by
    intro series
    have hdrawn := drawn_follow_le Floor.stocked rivalry series
    have hnext : (Floor.stocked.shop.sequences.next series).toNat = 1 := by cases series <;> rfl
    rw [Floor.reach, hnext]
    exact Nat.le_trans (Nat.add_le_add_left hdrawn 1) (by decide +kernel)
  obtain ⟨serial, rents, -⟩ := Floor.Run.serializable Floor.quiet_stocked
    (Floor.stocked.run_follow rivalry) (fun e => ordinary_turns) few
  exact ⟨serial, rents 1 _ (by decide) rfl rfl rivalry_race⟩

/-- The rows of a desk at which a renter has not paid for the first of all rentals. -/
def Tables.owing : Tables :=
  let shelf := ((Tables.empty.putItem ⟨1, "Alien", false⟩).putItem (.new 2 "Heat")).putItem
    (.new 3 "Ran")
  ((shelf.putItem (.new 4 "Brazil")).putRental ⟨1, 1, 7, .epoch, none⟩).putFee
    ⟨1, 1, Tariff.standard.baseFee, baseFeeReason, none⟩

/-- The floor of a desk that has almost used the identifiers of its rentals up. -/
def Floor.worn : Floor Visit Outcome :=
  ofShop (Shop.opened (.memory .owing) ⟨.after 0xfffffffffffffffe, .after 1, .after 0⟩ 100 .epoch)

theorem Floor.quiet_worn : worn.Quiet .owing where
  store := rfl
  empty _ := rfl
  locks := .empty
  shows := List.not_mem_nil
  keyed := (((((Tables.Keyed.empty.putItem _).putItem _).putItem _).putItem _).putRental _).putFee _
  fresh series id h := by
    simp only [Tables.owing, Tables.uses_putFee, Tables.uses_putRental, Tables.uses_putItem,
      Tables.uses_empty, Bool.or_false, Bool.or_eq_true, decide_eq_true_eq] at h
    rcases h with ⟨rfl, rfl⟩ | ⟨rfl, rfl⟩ <;> decide

/-- While the renter pays others rent, and one of them gets the identifier of the rental that is
being paid. -/
def wearing : List (Move Visit Outcome) :=
  let pay : Visit := ⟨1, .pay 1 7⟩
  let rents : List Visit := [⟨2, .rent 9 3⟩, ⟨3, .rent 9 4⟩, ⟨4, .rent 8 2⟩]
  turnsOf .standard (pay :: rents) ((pay, 15) :: rents.map (·, 30) ++ [(pay, 30)])

/-- The bound on the identifiers is needed. One after another, the payment comes after a rental to
somebody else under the same identifier and is refused, so that the item does not come back. -/
theorem Floor.Run.not_serial_wearing :
    Floor.worn.Quiet .owing ∧
      Floor.worn.Run (Floor.worn.follow wearing).1 (Floor.worn.follow wearing).2 ∧
      (∀ e ∈ (Floor.worn.follow wearing).1, e.Ordinary .standard) ∧
      ¬ Serial .standard Floor.worn (Floor.worn.follow wearing).1
        (Floor.worn.follow wearing).2 := by
  refine ⟨Floor.quiet_worn, Floor.worn.run_follow wearing, fun e => ordinary_turns,
    fun serial => ?_⟩
  let onShelf (store : Store) : Bool := (store.item? 1).toOption.join.any (·.available)
  have among : onShelf (Floor.worn.follow wearing).2.shop.store = true := by decide +kernel
  have alone : onShelf (serially .standard Floor.worn.shop.store
      (chronicle (Floor.worn.follow wearing).1).committed) = false := by decide +kernel
  rw [serial.store, alone] at among
  cases among

end RentalDesk
