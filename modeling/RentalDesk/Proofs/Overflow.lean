import RentalDesk.Proofs.Overflow.Faults
import RentalDesk.Proofs.Sightings

/-!
# No overflow without reason

At moderate prices every fee that still accrues is of a moderate amount, whatever was served before
and however often the desk was opened again. So whoever is served is shown moderate fees, and no
answer is an overflow, nor is a reply a fault of storage because of one: somebody who gets such a
reply was in trouble before. And whatever the prices are, a charge overflows only where the exact
amounts leave the range.
-/

namespace RentalDesk

open Script

/-! ## Moderate rows -/

theorem Fee.Moderate.kept {fee : Fee} (h : fee.Moderate) (medium : Medium) :
    (medium.fee fee).Moderate := by
  cases medium with
  | memory => exact h
  | archive =>
      intro unsettled
      obtain ⟨nonneg, value_le⟩ := h unsettled
      exact ⟨fee.amount.value_plainZero ▸ nonneg, fee.amount.value_plainZero ▸ value_le⟩

/-- All fees are moderate. -/
def Tables.Moderate (t : Tables) : Prop := ∀ id fee, t.fees.get? id = some fee → fee.Moderate

namespace Tables

variable {t t' news : Tables}

theorem Moderate.empty : Tables.empty.Moderate := fun _ _ h => absurd h.symm (Option.some_ne_none _)

theorem Moderate.putFee (h : t.Moderate) {fee : Fee} (moderate : fee.Moderate) :
    (t.putFee fee).Moderate := by
  intro id other hother
  rw [Tables.putFee, Table.get?_insert] at hother
  split at hother
  · exact Option.some.inj hother ▸ moderate
  · exact h id other hother

/-- A deal at moderate prices leaves no other fees, for what accrues is settled at once. -/
theorem Deal.moderate {terms : Terms} {renter? : Option RenterId}
    (deal : t.Deal terms renter? t') (prices : terms.tariff.Moderate) (h : t.Moderate) :
    t'.Moderate := by
  cases deal with
  | registered => exact h
  | @lent c _ _ same =>
      rw [← same] at prices
      have base : c.fee.Moderate := fun _ => prices.baseFee
      exact h.putFee base
  | returned => exact h.putFee (.of_settled rfl)
  | paid => exact h.putFee (.of_settled rfl)

end Tables

/-! ## Steps -/

namespace Shop

variable {shop : Shop} {writes : WriteSet} {t : Tables} {medium : Medium}

/-- What is staged stays moderate. -/
theorem moderate_staged (h : writes.staged.Moderate) {action : Action}
    (moderate : action.Moderate) : (shop.perform writes action).2.2.staged.Moderate := by
  cases action
  case insertFee fee =>
      have fresh : (fee.withId shop.sequences.fees.next).Moderate := fun _ => moderate
      exact h.putFee fresh
  case updateItem item =>
      refine staged_cases (P := fun _ w => w.staged.Moderate) (fun w hw => ?_) h
      rw [(WriteSet.stageItem_eq_ok hw).2]
      exact h
  case updateRental rental =>
      refine staged_cases (P := fun _ w => w.staged.Moderate) (fun w hw => ?_) h
      rw [(WriteSet.stageRental_eq_ok hw).2]
      exact h
  case updateFee fee =>
      refine staged_cases (P := fun _ w => w.staged.Moderate) (fun w hw => ?_) h
      obtain ⟨committed, -, hw⟩ := stageFee_of_bind hw
      rw [(WriteSet.stageFee_eq_ok hw).2]
      exact h.putFee moderate
  case release => exact .empty
  case discard => exact .empty
  case registerItem item =>
      rw [perform]
      split <;> exact h
  all_goals exact h

variable (store : shop.store = t.keptIn medium)

include store

theorem shown_moderate (h : t.Moderate) (hstaged : writes.staged.Moderate) (action : Action) :
    ∀ fee ∈ action.shown (shop.perform writes action).1, fee.Moderate := by
  have looked : ∀ fee ∈ t.fees.values.map medium.fee, fee.Moderate := by
    intro fee hfee
    obtain ⟨row, hrow, rfl⟩ := List.mem_map.1 hfee
    obtain ⟨id, stored⟩ := Table.mem_values.1 hrow
    exact (h id row stored).kept medium
  cases action
  case look what =>
      rw [perform, look_keptIn store]
      cases what
      case fees => exact looked
      case ledger => exact looked
      all_goals exact List.forall_mem_nil _
  case readFee id =>
      rw [perform, store, Tables.fee?_keptIn]
      cases hfee : writes.staged.fees.get? id with
      | some fee =>
          rintro _ (- | ⟨_, ⟨⟩⟩)
          exact hstaged id fee hfee
      | none =>
          cases hfee : t.fees.get? id with
          | none => exact List.forall_mem_nil _
          | some fee =>
              rintro _ (- | ⟨_, ⟨⟩⟩)
              exact (h id fee hfee).kept medium
  all_goals exact List.forall_mem_nil _

/-- The store refuses nothing but rows that are to be written. -/
theorem refused_storage {action : Action} {e : Error}
    (refused : action.error? (shop.perform writes action).1 = some e) : e.kind = .storage := by
  cases action
  case look what =>
      rw [perform, look_keptIn store] at refused
      cases refused
  case readItem id =>
      rw [perform, store, Tables.item?_keptIn] at refused
      cases h : writes.staged.items.get? id <;> rw [h] at refused <;> cases refused
  case readRental id =>
      rw [perform, store, Tables.rental?_keptIn] at refused
      cases h : writes.staged.rentals.get? id <;> rw [h] at refused <;> cases refused
  case readFee id =>
      rw [perform, store, Tables.fee?_keptIn] at refused
      cases h : writes.staged.fees.get? id <;> rw [h] at refused <;> cases refused
  case registerItem item =>
      rw [perform, store, Tables.item?_keptIn] at refused
      cases h : t.items.get? item.id <;> rw [h] at refused <;> cases refused
  case updateItem item =>
      rw [perform, WriteSet.stageItem_eq] at refused
      split at refused <;> cases refused
      rfl
  case updateRental rental =>
      rw [perform, WriteSet.stageRental_eq] at refused
      split at refused <;> cases refused
      rfl
  case updateFee fee =>
      rw [perform, store, Tables.fee?_keptIn, Except.bind, WriteSet.stageFee_eq] at refused
      split at refused
      · split at refused <;> cases refused
        rfl
      · cases refused
        rfl
  all_goals cases refused

/-- Whoever acts is attended to. -/
theorem attended_perform (h : t.Moderate) (hstaged : writes.staged.Moderate) {action : Action}
    {smooth : Prop} (untroubled : smooth → action.troubled (shop.perform writes action).1 = false) :
    action.Attended smooth (shop.perform writes action).1 where
  shown := shown_moderate store h hstaged action
  refused e he := by
    rw [refused_storage store he]
    decide
  untroubled := untroubled

end Shop

namespace Session

variable {shop shop' : Shop} {s s' : Session Answer} {deed : Deed} {t : Tables} {medium : Medium}
  {smooth : Prop}

/-- The session stages moderate fees, and goes on as one that is attended to. -/
structure Attends (s : Session Answer) (smooth : Prop) : Prop where
  staged : s.writes.staged.Moderate
  follows : s.Follows (attending smooth) () fun answer _ => answer.Arises smooth

/-- A step among moderate rows that is no trouble, if all goes smoothly. -/
theorem Step.attends (step : Step shop s deed shop' s') (h : s.Attends smooth)
    (store : shop.store = t.keptIn medium) (moderate : t.Moderate)
    (untroubled : smooth → deed.troubled = false) : s'.Attends smooth := by
  obtain ⟨staged, follows⟩ := h
  cases step with
  | act =>
      refine ⟨Shop.moderate_staged staged follows.1, follows.2 _ () ?_⟩
      exact Shop.attended_perform store moderate staged untroubled
  | pass holds => exact ⟨staged, follows true () fun _ => rfl⟩
  | ask holds => exact ⟨staged, follows⟩
  | take granted => exact ⟨staged, follows true () fun _ => rfl⟩
  | giveUp =>
      refine ⟨staged, follows false () fun hsmooth => ?_⟩
      cases untroubled hsmooth

end Session

/-! ## Runs -/

namespace Floor

variable {ν : Type} [DecidableEq ν] {terms : Terms} {drawn : Series → Nat}
  {f g : Floor ν Answer} {events : List (Event ν Answer)} {v : ν} {smooth : Prop}

/-- At moderate prices all rows are moderate. -/
theorem Reached.moderate (h : f.Reached Tariff.Moderate terms drawn) :
    ∃ t : Tables, f.shop.store = t.keptIn terms.medium ∧ t.Moderate := by
  obtain ⟨t, last, -, kept, -, moderate⟩ :=
    h.keeps .empty fun prices moderate deal => deal.moderate prices moderate
  exact ⟨t, kept.store, moderate⟩

/-- Whoever has come in the run is attended to. -/
theorem Run.attends (run : f.Run events g) (h : f.Reached Tariff.Moderate terms drawn)
    (served : ∀ e ∈ events, e.Served terms) (few : ∀ s, drawn s + draws events s < UInt64.size)
    (absent : f.sessions v = none)
    (untroubled : smooth → ∀ deed, .does v deed ∈ events → deed.troubled = false)
    {s : Session Answer} (present : g.sessions v = some s) : s.Attends smooth := by
  induction run generalizing s with
  | nil => cases absent.symm.trans present
  | @snoc events g g' e run step ih =>
      rw [List.forall_mem_append] at served
      have fewer := few_of_append few
      have before : ∀ {s}, g.sessions v = some s → s.Attends smooth :=
        ih served.1 fewer.1 fun hsmooth deed hdeed =>
          untroubled hsmooth deed (List.mem_append_left _ hdeed)
      by_cases own : e.name? = some v
      swap
      · rw [step.sessions_of_ne own] at present
        exact before present
      cases step with
      | @comes w task nobody =>
          obtain rfl := Option.some.inj own
          obtain rfl := Option.some.inj ((put_sessions_self ..).symm.trans present)
          obtain ⟨service, rfl⟩ := served.2 _ List.mem_cons_self
          exact ⟨.empty, service.attends h.accepted⟩
      | @does w x x' deed shop there moves =>
          obtain rfl := Option.some.inj own
          obtain rfl := Option.some.inj ((put_sessions_self ..).symm.trans present)
          obtain ⟨t, store, moderate⟩ := (h.run run served.1 fewer.1).moderate
          exact moves.attends (before there) store moderate fun hsmooth =>
            untroubled hsmooth deed (List.mem_append_right _ List.mem_cons_self)
      | @leaves w x there =>
          obtain rfl := Option.some.inj own
          cases (remove_sessions_self ..).symm.trans present
      | turns => cases own

/-- Whoever is answered by a fault of storage was in trouble, and nobody is answered by an
overflow. -/
theorem Run.answer_arises (run : f.Run events g) (h : f.Reached Tariff.Moderate terms drawn)
    (served : ∀ e ∈ events, e.Served terms) (few : ∀ s, drawn s + draws events s < UInt64.size)
    (absent : f.sessions v = none) {answer : Answer}
    (answered : (g.sessions v).bind Session.result? = some answer) :
    (∀ e, answer.error? = some e → e.kind ≠ .amountOverflow) ∧
      (answer.isFault = true → ∃ deed, .does v deed ∈ events ∧ deed.troubled = true) := by
  obtain ⟨s, present, result⟩ := Option.bind_eq_some_iff.1 answered
  -- All has gone smoothly if no deed of the run was a trouble.
  let smooth : Prop := ∀ deed, .does v deed ∈ events → deed.troubled = false
  have attends : s.Attends smooth := run.attends h served few absent (fun calm => calm) present
  have arises : answer.Arises smooth := attends.follows.ends result
  refine ⟨arises.other, fun fault => ?_⟩
  by_contra none
  have calm : smooth := fun deed hdeed => by
    by_contra trouble
    exact none ⟨deed, hdeed, Bool.eq_true_of_not_eq_false trouble⟩
  cases fault.symm.trans (arises.smooth calm)

end Floor

namespace Tariff

open Decimal Floor

/-- A charge overflows if and only if the exact product of the minutes and the rate, or the exact
sum of the base fee and the rounded product, is half a unit below the end of the range or beyond;
in all other cases it is made. There is a count of minutes between any two instants. It is not
negative, it is the count of milliseconds up to half a unit of its last decimal, and it grows with
that count, so it grows with the later instant and shrinks with the earlier one, but where a leap
second inside a day is involved. At moderate prices nobody is ever answered by an overflow, and
whoever is answered by a fault of storage was in trouble before. -/
theorem overflows_iff_exceeds {tariff : Tariff} {base : Decimal} (hbase : 0 ≤ base.value)
    (hrate : 0 ≤ tariff.accrualRate.value) :
    (∀ start stop,
      (tariff.accrued base start stop =
          .error (.amountOverflow base tariff.accrualRate start stop) ↔
        tariff.Exceeds base start stop) ∧
      ((∃ amount, tariff.accrued base start stop = .ok amount) ↔
        ¬ tariff.Exceeds base start stop)) ∧
    (∀ start stop,
      minutesOfMillis? (elapsedMillis start stop) = some (elapsedMinutes start stop) ∧
      0 ≤ (elapsedMinutes start stop).value ∧
      |(elapsedMinutes start stop).value - elapsedMillis start stop / 60000| ≤
        1 / (2 * 10 ^ (elapsedMinutes start stop).scale)) ∧
    (∀ start stop start' stop', elapsedMillis start stop ≤ elapsedMillis start' stop' →
      (elapsedMinutes start stop).value ≤ (elapsedMinutes start' stop').value) ∧
    (∀ start stop stop' : Instant, start.Steady → stop.inLeapSecond = false →
      stop'.inLeapSecond = false → stop ≤ stop' →
        (elapsedMinutes start stop).value ≤ (elapsedMinutes start stop').value) ∧
    (∀ start start' stop : Instant, stop.Steady → start.inLeapSecond = false →
      start'.inLeapSecond = false → start ≤ start' →
        (elapsedMinutes start' stop).value ≤ (elapsedMinutes start stop).value) ∧
    ∀ (ν : Type) [DecidableEq ν] (terms : Terms) (drawn : Series → Nat) (f g : Floor ν Answer)
      (events : List (Event ν Answer)) (v : ν) (answer : Answer),
      f.Reached Tariff.Moderate terms drawn → f.Run events g →
      (∀ e ∈ events, e.Served terms) → (∀ s, drawn s + draws events s < UInt64.size) →
      f.sessions v = none → (g.sessions v).bind Session.result? = some answer →
        (∀ e, answer.error? = some e → e.kind ≠ .amountOverflow) ∧
        (answer.isFault = true → ∃ deed, .does v deed ∈ events ∧ deed.troubled = true) := by
  refine ⟨fun start stop =>
      ⟨accrued_eq_overflow_iff hbase hrate, exists_accrued_iff hbase hrate⟩,
    fun start stop => ?_, fun _ _ _ _ => elapsedMinutes_mono, ?_, ?_, ?_⟩
  · have near := (near_minutes start stop).1
    exact ⟨minutesOfMillis?_elapsed start stop, near.nonneg, near.close⟩
  · intro start stop stop' hstart hstop hstop' le
    exact elapsedMinutes_mono (elapsedMillis_mono hstart hstop hstop' le)
  · intro start start' stop hstop hstart hstart' le
    exact elapsedMinutes_mono (elapsedMillis_anti hstop hstart hstart' le)
  · intro ν _ terms drawn f g events v answer reached run served few absent answered
    exact run.answer_arises reached served few absent answered

/-- The greatest rate, with which the second minute leaves the range. -/
def steep : Tariff where
  baseFee := .zero
  accrualRate := ⟨false, twoPow 96 - 1, 0, by decide, Decimal.zero.scale_le⟩

theorem value_steep : steep.accrualRate.value = 2 ^ 96 - 1 := by
  norm_num [steep, value, signed, twoPow]

/-- Ten quadrillions. -/
def tenQuadrillions : Decimal := ⟨false, 10000000000000000, 0, by decide, Decimal.zero.scale_le⟩

theorem moderate_tenQuadrillions : tenQuadrillions.Moderate := by
  constructor <;> norm_num [tenQuadrillions, value, signed]

/-- The greatest moderate prices. -/
def costly : Tariff := ⟨tenQuadrillions, tenQuadrillions⟩

/-- Two renters want an item. The one who comes second gives up waiting for it. -/
def jostle : List (Move Nat Answer) :=
  servings ⟨costly, .memory⟩
    [(0, .register (.new 1 "Heat")), (1, .call (.send "RENT;1;7")), (2, .call (.send "RENT;1;8"))]
    [(0, 2), (1, 7), (2, 6)] [] ++ [.givesUp 2, .goesOn 2, .goesOn 2]

theorem serves_jostle : ∀ m ∈ jostle, m.Serves ⟨costly, .memory⟩ := by
  rw [jostle, List.forall_mem_append]
  refine ⟨serves_servings, ?_⟩
  simp [Move.Serves]

/-- At the greatest rate a minute can be charged, and two minutes cannot. Whoever gives up waiting
is answered by a fault of storage, and at the greatest moderate prices that is why. -/
theorem overflows_iff_exceeds_steep :
    (0 ≤ Decimal.zero.value ∧ 0 ≤ steep.accrualRate.value ∧
      steep.accrued .zero .epoch (afterMillis 120000) =
        .error (.amountOverflow .zero steep.accrualRate .epoch (afterMillis 120000)) ∧
      ∃ amount, steep.accrued .zero .epoch (afterMillis 60000) = .ok amount) ∧
    (beforeMidnight ≤ midnight ∧
      (elapsedMinutes .epoch beforeMidnight).value ≤ (elapsedMinutes .epoch midnight).value ∧
      (elapsedMinutes midnight midnightLeap).value ≤
        (elapsedMinutes beforeMidnight midnightLeap).value) ∧
    let f : Floor Nat Answer := ofShop (.opened (.empty .memory) .fresh 100 .epoch)
    ∃ answer, ((f.follow jostle).2.sessions 2).bind Session.result? = some answer ∧
      answer.isFault = true ∧
      ∃ deed, .does 2 deed ∈ (f.follow jostle).1 ∧ deed.troubled = true := by
  have hzero : 0 ≤ Decimal.zero.value := value_zero.ge
  have hrate : 0 ≤ steep.accrualRate.value := by
    rw [value_steep]
    norm_num
  obtain ⟨charges, -, -, later, earlier, serves⟩ := overflows_iff_exceeds hzero hrate
  refine ⟨?_, ?_, ?_⟩
  · refine ⟨hzero, hrate, (charges .epoch _).1.2 (.inl ?_), (charges .epoch _).2.2 ?_⟩
    · have minutes : elapsedMinutes .epoch (afterMillis 120000) =
          ⟨false, 2, 0, by decide, by decide⟩ := by decide +kernel
      rw [minutes, value_steep]
      norm_num [value, signed]
    · have minutes : elapsedMinutes .epoch (afterMillis 60000) =
          ⟨false, 1, 0, by decide, by decide⟩ := by decide +kernel
      rw [Exceeds, minutes]
      rintro (beyond | ⟨product, hproduct, beyond⟩)
      · rw [value_steep] at beyond
        norm_num [value, signed] at beyond
      · rw [value_zero, zero_add] at beyond
        exact absurd product.value_lt_limit (not_lt.2 beyond)
  · have le : beforeMidnight ≤ midnight := by decide +kernel
    exact ⟨le, later _ _ _ (.inl (by decide +kernel)) (by decide +kernel) (by decide +kernel) le,
      earlier _ _ _ (.inr (by decide +kernel)) (by decide +kernel) (by decide +kernel) le⟩
  · intro f
    have fault : (((f.follow jostle).2.sessions 2).bind Session.result?).any Answer.isFault := by
      decide +kernel
    obtain ⟨answer, answered, hfault⟩ := (Option.any_eq_true ..).1 fault
    have few : ∀ s, 0 + draws (f.follow jostle).1 s < UInt64.size := fun s => by
      rw [Nat.zero_add]
      exact Nat.lt_of_le_of_lt (draws_follow_le f jostle s) (by decide +kernel)
    have opened : f.Reached Moderate ⟨costly, .memory⟩ fun _ => 0 :=
      .opened ⟨moderate_tenQuadrillions, moderate_tenQuadrillions⟩ 100 .epoch
    exact ⟨answer, answered, hfault, (serves Nat _ _ _ _ _ 2 answer opened (run_follow f jostle)
      (served_of_serves serves_jostle) few rfl answered).2 hfault⟩

/-- The start of the day with the leap second at noon. -/
def dayStart : Instant := (Instant.ofMillis? 1714521600000 0).getD .epoch

/-- A millisecond earlier. -/
def dayBefore : Instant := (Instant.ofMillis? 1714521599999 0).getD .epoch

/-- From a leap second at noon fewer minutes have passed at midnight than just before it, and up to
it more minutes have passed from the midnight before than from just before that. -/
theorem not_elapsedMinutes_mono :
    (beforeMidnight ≤ midnight ∧
      (elapsedMinutes noonLeap midnight).value < (elapsedMinutes noonLeap beforeMidnight).value) ∧
    (dayBefore ≤ dayStart ∧
      (elapsedMinutes dayBefore noonLeap).value < (elapsedMinutes dayStart noonLeap).value) := by
  refine ⟨⟨by decide +kernel, ?_⟩, by decide +kernel, ?_⟩
  · have more : elapsedMinutes noonLeap beforeMidnight =
        ⟨false, 71900831666666666666666666667, 26, by decide, by decide⟩ := by decide +kernel
    have fewer : elapsedMinutes noonLeap midnight =
        ⟨false, 71899166666666666666666666667, 26, by decide, by decide⟩ := by decide +kernel
    norm_num [more, fewer, value, signed]
  · have more : elapsedMinutes dayStart noonLeap =
        ⟨false, 72100833333333333333333333333, 26, by decide, by decide⟩ := by decide +kernel
    have fewer : elapsedMinutes dayBefore noonLeap =
        ⟨false, 72099168333333333333333333333, 26, by decide, by decide⟩ := by decide +kernel
    norm_num [more, fewer, value, signed]

end Tariff

end RentalDesk
