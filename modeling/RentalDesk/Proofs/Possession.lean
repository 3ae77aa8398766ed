import RentalDesk.Proofs.AppendOnly
import RentalDesk.Proofs.Availability
import RentalDesk.Proofs.Dealing.Floor

/-!
# One holder at a time

If the clock never goes backwards, the times on the rentals of an item agree with the order in which
it was handed out and given back: no rental ends before it starts, and of two rentals of an item one
ends before the other one starts.

A rent reads the clock under the lock of the item. Whoever had the item before has given it back by
a commit that was made before this lock was granted, so at a time that was read before. A payment
reads the clock before it waits for the item, but under the lock of the rental, which was started by
then.
-/

namespace RentalDesk

/-- The one rental ends before the other one starts. -/
def Rental.Before (a b : Rental) : Prop := ∃ back, a.returnedAt = some back ∧ back ≤ b.rentedAt

namespace Tables

/-- The times of rentals are in order, and an item with an open rental is out. -/
structure Timely (t : Tables) : Prop where
  out : ∀ key rental, t.Open key rental → t.Out rental.itemId
  closes : ∀ key rental back, t.rentals.get? key = some rental → rental.returnedAt = some back →
    rental.rentedAt ≤ back
  apart : ∀ key key' rental rental', key ≠ key' → t.rentals.get? key = some rental →
    t.rentals.get? key' = some rental' → rental.itemId = rental'.itemId →
    rental.Before rental' ∨ rental'.Before rental

/-- The times that are written on the rentals. -/
def Marks (t : Tables) (time : Instant) : Prop :=
  ∃ key rental, t.rentals.get? key = some rental ∧
    (rental.rentedAt = time ∨ rental.returnedAt = some time)

variable {t : Tables} {item : Item} {rental : Rental} {fee : Fee} {now time : Instant}

namespace Timely

theorem empty : Tables.empty.Timely where
  out key rental h := by simp [Open, Tables.empty] at h
  closes key rental back h := by simp [Tables.empty] at h
  apart key key' rental rental' _ h := by simp [Tables.empty] at h

theorem putItem (h : t.Timely) (new : t.items.get? item.id = none) : (t.putItem item).Timely where
  out key rental hopen := by
    obtain ⟨found, hfound, hout⟩ := h.out key rental hopen
    rw [out_putItem, if_neg]
    · exact ⟨found, hfound, hout⟩
    · intro hid
      rw [hid, new] at hfound
      cases hfound
  closes := h.closes
  apart := h.apart

/-- All rentals of an item on the shelf have ended before it is handed out again. -/
theorem lend (h : t.Timely) (found : t.items.get? item.id = some item)
    (available : item.available = true) (fresh : t.rentals.get? rental.id = none)
    (lent : rental.itemId = item.id) (still : rental.returnedAt = none)
    (back : ∀ key other back, t.rentals.get? key = some other → other.itemId = item.id →
      other.returnedAt = some back → back ≤ rental.rentedAt) : (t.lend item rental fee).Timely := by
  have before : ∀ key other, t.rentals.get? key = some other → other.itemId = rental.itemId →
      other.Before rental := by
    intro key other hother hid
    rw [lent] at hid
    cases hback : other.returnedAt with
    | none =>
        obtain ⟨row, hrow, hout⟩ := h.out key other ⟨hother, hback⟩
        obtain rfl := Option.some.inj (found.symm.trans (hid ▸ hrow))
        cases hout.symm.trans available
    | some time => exact ⟨time, hback, back key other time hother hid hback⟩
  constructor
  case out =>
    intro key other hopen
    rw [out_lend]
    rcases (open_lend fresh still).1 hopen with ⟨-, rfl⟩ | hopen
    · exact .inl lent
    · exact .inr (h.out key other hopen)
  case closes =>
    intro key other time hother hback
    rw [rentals_lend, Table.get?_insert] at hother
    split at hother
    · rw [← Option.some.inj hother, still] at hback
      cases hback
    · exact h.closes key other time hother hback
  case apart =>
    intro key key' other other' hne hother hother' hid
    rw [rentals_lend, Table.get?_insert] at hother hother'
    split at hother
    · next hkey =>
        obtain rfl := Option.some.inj hother
        rw [if_neg fun hkey' => hne (hkey.trans hkey'.symm)] at hother'
        exact .inr (before key' other' hother' hid.symm)
    · split at hother'
      · obtain rfl := Option.some.inj hother'
        exact .inl (before key other hother hid)
      · exact h.apart key key' other other' hne hother hother' hid

/-- The rental that is closed was the last one of its item, and stays so. -/
theorem close (h : t.Timely) (lent : t.Open rental.id rental) (of : item.id = rental.itemId)
    (later : rental.rentedAt ≤ now) : (t.close item rental now).Timely := by
  have before : ∀ key other, key ≠ rental.id → t.rentals.get? key = some other →
      other.itemId = rental.itemId → other.Before rental := by
    intro key other hne hother hid
    rcases h.apart key rental.id other rental hne hother lent.1 hid with first | ⟨back, hback, -⟩
    · exact first
    · rw [lent.2] at hback
      cases hback
  constructor
  case out =>
    intro key other hopen
    obtain ⟨hne, hopen⟩ := open_close.1 hopen
    refine out_close.2 ⟨fun hid => ?_, h.out key other hopen⟩
    obtain ⟨back, hback, -⟩ := before key other hne hopen.1 (hid.trans of)
    rw [hopen.2] at hback
    cases hback
  case closes =>
    intro key other time hother hback
    rw [rentals_close, Table.get?_insert] at hother
    split at hother
    · obtain rfl := Option.some.inj hother
      obtain rfl := Option.some.inj hback
      exact later
    · exact h.closes key other time hother hback
  case apart =>
    intro key key' other other' hne hother hother' hid
    rw [rentals_close, Table.get?_insert] at hother hother'
    split at hother
    · next hkey =>
        obtain rfl := Option.some.inj hother
        have hne' : key' ≠ rental.id := fun hkey' => hne (hkey.trans hkey'.symm)
        rw [if_neg hne'] at hother'
        exact .inr (before key' other' hne' hother' hid.symm)
    · next hkey =>
        split at hother'
        · obtain rfl := Option.some.inj hother'
          exact .inl (before key other hkey hother hid)
        · exact h.apart key key' other other' hne hother hother' hid

theorem settle (h : t.Timely) (fee : Fee) (invoice : Invoice) : (t.settle fee invoice).Timely :=
  ⟨h.out, h.closes, h.apart⟩

end Timely

theorem marks_lend (h : (t.lend item rental fee).Marks time) (still : rental.returnedAt = none) :
    t.Marks time ∨ time = rental.rentedAt := by
  obtain ⟨key, other, hother, htime⟩ := h
  rw [rentals_lend, Table.get?_insert] at hother
  split at hother
  · obtain rfl := Option.some.inj hother
    rw [still] at htime
    exact .inr (htime.resolve_right nofun).symm
  · exact .inl ⟨key, other, hother, htime⟩

theorem marks_close (h : (t.close item rental now).Marks time)
    (lent : t.rentals.get? rental.id = some rental) : t.Marks time ∨ time = now := by
  obtain ⟨key, other, hother, htime⟩ := h
  rw [rentals_close, Table.get?_insert] at hother
  split at hother
  · obtain rfl := Option.some.inj hother
    rcases htime with htime | htime
    · exact .inl ⟨_, rental, lent, .inl htime⟩
    · exact .inr (Option.some.inj htime).symm
  · exact .inl ⟨key, other, hother, htime⟩

end Tables

/-! ## Readings of the clock and rows -/

/-- What was known when the clock was read is known still, and it is older than the reading: the
rentals have started by then, and the rentals of the items, as far as they have ended, have ended by
then. -/
structure Watch.Timed (w : Watch) (t : Tables) (times : List Instant) (m : Moment) : Prop where
  known : ∀ row ∈ m.known, row ∈ w.custody.known
  read : m.now ∈ times
  rentals : ∀ rental, (.rental rental.id, some (.rental rental)) ∈ m.known →
    rental.rentedAt ≤ m.now
  items : ∀ item, (.item item.id, some (.item item)) ∈ m.known → ∀ key rental back,
    t.rentals.get? key = some rental → rental.itemId = item.id → rental.returnedAt = some back →
    back ≤ m.now

section

variable {terms : Terms} {t t' : Tables} {times times' : List Instant} {w w' x : Watch} {m : Moment}
  {last : Series → Nat} {action : Action} {answer : action.Answer} {command : Command}
  {reply : Reply}

namespace Watch

theorem Timed.mono (h : w.Timed t times m)
    (known : ∀ row ∈ w.custody.known, row ∈ w'.custody.known)
    (read : ∀ time ∈ times, time ∈ times')
    (rentals : ∀ item, (.item item.id, some (.item item)) ∈ m.known → ∀ key rental,
      t'.rentals.get? key = some rental → rental.itemId = item.id →
      t.rentals.get? key = some rental) : w'.Timed t' times' m where
  known row hrow := known row (h.known row hrow)
  read := read _ h.read
  rentals := h.rentals
  items item hitem key rental back hrental hid :=
    h.items item hitem key rental back (rentals item hitem key rental hrental hid) hid

/-- Whoever reads the clock reads a time that is not before any time on the rows. -/
theorem Timed.reading {now : Instant} (fits : Policy.history.Fits terms.medium t last w.custody)
    (marks : ∀ time, t.Marks time → time ∈ times)
    (forward : (times ++ [now]).Pairwise (· ≤ ·)) :
    w.Timed t (times ++ [now]) ⟨now, w.custody.known⟩ where
  known row hrow := hrow
  read := List.mem_append_right _ (List.mem_singleton_self now)
  rentals rental hrental := by
    have hrow := Tables.row?_rental.1 (fits.known _ _ hrental).2.2.1
    have hmark := marks _ ⟨rental.id, rental, hrow, .inl rfl⟩
    exact (List.pairwise_append.1 forward).2.2 _ hmark now (List.mem_singleton_self now)
  items item _ key rental back hrental _ hback := by
    have hmark := marks _ ⟨key, rental, hrental, .inr hback⟩
    exact (List.pairwise_append.1 forward).2.2 _ hmark now (List.mem_singleton_self now)

/-- To commit what is prepared keeps the times of rentals in order. -/
theorem Prepared.timely (h : w.Prepared terms command reply)
    (fits : Policy.history.Fits terms.medium t last w.custody) (working : w.custody.ended = false)
    (timely : t.Timely) (marks : ∀ time, t.Marks time → time ∈ times)
    (timed : ∀ m, w.moment? = some m → w.Timed t times m) :
    (t.merge w.custody.writes.staged).Timely ∧
      ∀ time, (t.merge w.custody.writes.staged).Marks time → time ∈ times := by
  cases h with
  | @lent c _ renter item _ moment _ found available rentalDrawn _ staged =>
      have reading := timed _ moment
      have hfresh := Tables.get?_of_unused_rental (fits.fresh working .rentals _ rfl rentalDrawn)
      have lend : (t.lend item (c.rental renter item.id) c.fee).Timely :=
        timely.lend (Tables.row?_item.1 (found.found fits)) available hfresh rfl rfl
          (reading.items item found.1)
      rw [staged]
      refine ⟨lend, fun time hmark => ?_⟩
      rcases Tables.marks_lend hmark rfl with hmark | rfl
      · exact marks time hmark
      · exact reading.read
  | @returned c _ fee rental item amount _ moment _ _ _ lent of still found home _ _ staged =>
      have reading := timed _ moment
      have hlent := Tables.row?_rental.1 (lent.found fits)
      have hopen : t.Open rental.id rental := ⟨hlent, Option.isNone_iff_eq_none.1 still⟩
      rw [staged]
      refine ⟨(timely.close hopen home (reading.rentals rental lent.1)).settle _ _,
        fun time hmark => ?_⟩
      have hmark : (t.close item rental c.now).Marks time := hmark
      rcases Tables.marks_close hmark hlent with hmark | rfl
      · exact marks time hmark
      · exact reading.read
  | paid _ _ _ _ _ _ _ _ _ staged =>
      rw [staged]
      exact ⟨timely.settle _ _, marks⟩

/-- The rentals of an item that somebody else has locked stay as they are. -/
theorem Prepared.elsewhere (h : w.Prepared terms command reply)
    (fits : Policy.history.Fits terms.medium t last w.custody) {id : ItemId}
    (unlocked : w.custody.writes.locks (.item id) = false) {key : RentalId} {rental : Rental}
    (hrental : (t.merge w.custody.writes.staged).rentals.get? key = some rental)
    (hid : rental.itemId = id) : t.rentals.get? key = some rental := by
  have locked : ∀ item : Item, (.item item.id, some (.item item)) ∈ w.custody.known →
      item.id ≠ id := by
    rintro item found rfl
    have locks := (fits.known _ _ found).2.1
    rw [unlocked] at locks
    cases locks
  cases h with
  | @lent c _ renter item _ _ _ found _ _ _ staged =>
      rw [staged] at hrental
      have hrental : (t.lend item (c.rental renter item.id) c.fee).rentals.get? key =
        some rental := hrental
      rw [Tables.rentals_lend, Table.get?_insert] at hrental
      split at hrental
      · obtain rfl := Option.some.inj hrental
        exact absurd hid (locked item found.2)
      · exact hrental
  | @returned c _ fee other item amount _ _ _ _ _ _ _ _ found home _ _ staged =>
      rw [staged] at hrental
      have hrental : (t.close item other c.now).rentals.get? key = some rental := hrental
      rw [Tables.rentals_close, Table.get?_insert] at hrental
      split at hrental
      · obtain rfl := Option.some.inj hrental
        exact absurd (home.trans hid) (locked item found)
      · exact hrental
  | paid _ _ _ _ _ _ _ _ _ staged =>
      rw [staged] at hrental
      exact hrental

/-- Only a commit changes rentals. -/
theorem rentals_performed (t : Tables) (writes : WriteSet) (h : action.commitsNothing = true) :
    (t.performed writes action).rentals = t.rentals := by
  cases action
  case apply => cases h
  case registerItem item =>
      rw [Tables.performed]
      split <;> rfl
  all_goals rfl

/-- What is known stays known until the transaction ends. -/
theorem known_after_still (still : action.still = true) (writes : WriteSet) :
    ∀ row ∈ w.custody.known,
      row ∈ (Policy.history.after terms.medium t w.custody writes action).known := by
  have learned : ∀ key, ∀ row ∈ w.custody.known,
      row ∈ (Policy.history.learn terms.medium t key w.custody).known := by
    intro key row hrow
    rw [Policy.learn]
    split
    · exact List.mem_cons_of_mem _ hrow
    · exact hrow
  cases action
  case now => cases still
  case apply => cases still
  case placeItem item => cases still
  case release => cases still
  case discard => cases still
  case look what =>
      cases what
      case item id => exact learned (.item id)
      all_goals exact fun _ => id
  case readItem id => exact learned (.item id)
  case readRental id => exact learned (.rental id)
  case readFee id => exact learned (.fee id)
  all_goals exact fun _ => id

/-- An action keeps the times of rentals in order. -/
theorem Acts.timely (acts : w.Acts terms t action answer w') (timely : t.Timely)
    (marks : ∀ time, t.Marks time → time ∈ times)
    (timed : ∀ m, w.moment? = some m → w.Timed t times m) :
    (t.performed w.custody.writes action).Timely ∧
      ∀ time, (t.performed w.custody.writes action).Marks time → time ∈ times := by
  obtain ⟨last, fits⟩ := acts.fits
  obtain ⟨custody, prepared⟩ := acts.permits
  cases action
  case apply =>
      obtain ⟨_, _, prepared⟩ := prepared rfl
      exact prepared.timely fits custody.1 timely marks timed
  case placeItem item =>
      have new := (fits.known _ _ (custody.2.2 rfl)).2.2.1
      exact ⟨timely.putItem (by simpa [Tables.row?] using new), marks⟩
  case registerItem item =>
      rw [Tables.performed]
      split
      · exact ⟨timely, marks⟩
      · next new => exact ⟨timely.putItem (Option.not_isSome_iff_eq_none.1 new), marks⟩
  all_goals exact ⟨timely, marks⟩

/-- Whoever does an action knows afterwards nothing that is younger than his reading. -/
theorem Acts.timed (acts : w.Acts terms t action answer w')
    (marks : ∀ time, t.Marks time → time ∈ times)
    (forward : (times ++ (action.reading? answer).toList).Pairwise (· ≤ ·))
    (timed : ∀ m, w.moment? = some m → w.Timed t times m) (hm : w'.moment? = some m) :
    w'.Timed (t.performed w.custody.writes action)
      (times ++ (action.reading? answer).toList) m := by
  obtain ⟨last, fits⟩ := acts.fits
  obtain ⟨writes, rfl⟩ := acts.after
  by_cases still : action.still = true
  · rw [w.after_still still] at hm ⊢
    refine (timed m hm).mono (known_after_still still writes)
      (fun _ => List.mem_append_left _) fun _ _ key rental hrental _ => ?_
    rwa [rentals_performed t _ (commitsNothing_of_still _ still)] at hrental
  · cases action
    case now =>
        obtain rfl := Option.some.inj hm
        exact (Timed.reading fits marks forward).mono (fun _ => id) (fun _ => id)
          fun _ _ _ _ hrental _ => hrental
    case apply => cases hm
    case placeItem item => cases hm
    case release => cases hm
    case discard => cases hm
    all_goals exact absurd rfl still

/-- Nobody else changes the rentals of the items that somebody knows. -/
theorem Acts.timed_other (acts : w.Acts terms t action answer w')
    (fits : Policy.history.Fits terms.medium t last x.custody)
    (apart : ∀ key, w.custody.writes.locks key → x.custody.writes.locks key = false)
    (timed : x.Timed t times m) :
    x.Timed (t.performed w.custody.writes action) (times ++ (action.reading? answer).toList) m := by
  refine timed.mono (fun _ => id) (fun _ => List.mem_append_left _) ?_
  intro item hitem key rental hrental hid
  obtain ⟨last, fits'⟩ := acts.fits
  obtain ⟨custody, prepared⟩ := acts.permits
  by_cases commits : action.commitsNothing = true
  · rwa [rentals_performed t _ commits] at hrental
  · obtain rfl : action = .apply := by cases action <;> first | rfl | exact absurd rfl commits
    have unlocked : w.custody.writes.locks (.item item.id) = false := by
      refine Bool.eq_false_iff.2 fun locks => ?_
      have locked := (fits.known _ _ (timed.known _ hitem)).2.1
      rw [apart _ locks] at locked
      cases locked
    obtain ⟨_, _, prepared⟩ := prepared rfl
    exact prepared.elsewhere fits' unlocked hrental hid

end Watch

end

/-- The regard in which the rows and everybody at work are held if the clock goes forward. -/
def Regard.possession (ν : Type) (terms : Terms) : Regard ν terms where
  rows t times := times.Pairwise (· ≤ ·) → t.Timely ∧ ∀ time, t.Marks time → time ∈ times
  party _ w t times := times.Pairwise (· ≤ ·) → ∀ m, w.moment? = some m → w.Timed t times m
  hold party forward m hm := by
    obtain ⟨known, read, rentals, items⟩ := party forward m hm
    exact ⟨known, read, rentals, items⟩
  deals rows party acts forward := by
    have before := (List.pairwise_append.1 forward).1
    obtain ⟨timely, marks⟩ := rows before
    obtain ⟨timely', marks'⟩ := acts.timely timely marks (party before)
    exact ⟨timely', fun time hmark => List.mem_append_left _ (marks' time hmark)⟩
  acts rows party acts forward m hm := by
    have before := (List.pairwise_append.1 forward).1
    exact acts.timed (rows before).2 forward (party before) hm
  others rows party acts party' fits apart forward m hm := by
    have before := (List.pairwise_append.1 forward).1
    exact acts.timed_other fits apart (party' before m hm)

namespace Floor

variable {ν : Type} [DecidableEq ν] {events : List (Event ν Script.Answer)}
  {f : Floor ν Script.Answer}

/-- Any number of items are registered, items rented, fees paid and rows listed at the same time, on
either medium. Calls may fail, rows may be refused and sessions dropped at any time, but the clock
never goes backwards. Then no rental ends before it starts, and of two rentals of one item one has
ended before the other one starts. -/
theorem Run.possession (terms : Terms) (lockWait : Nat) (clock : Instant)
    (run : (ofShop (Shop.opened (.empty terms.medium) .fresh lockWait clock)).Run events f)
    (served : ∀ e ∈ events, e.Served terms) (forward : (readings events).Pairwise (· ≤ ·))
    (few : ∀ s, draws events s < UInt64.size) :
    ∃ t : Tables, f.shop.store = t.keptIn terms.medium ∧
      (∀ key rental back, t.rentals.get? key = some rental → rental.returnedAt = some back →
        rental.rentedAt ≤ back) ∧
      ∀ key key' rental rental', key ≠ key' → t.rentals.get? key = some rental →
        t.rentals.get? key' = some rental' → rental.itemId = rental'.itemId →
        rental.Before rental' ∨ rental'.Before rental := by
  have dealing : ∀ e ∈ events, e.Dealing (Regard.possession ν terms) :=
    fun e he => (served e he).dealing fun _ _ _ _ _ _ hm => nomatch hm
  have start : (ofShop (Shop.opened (.empty terms.medium) .fresh lockWait clock) :
      Floor ν Script.Answer).Dealt (Regard.possession ν terms) .empty (fun _ => 0) [] := by
    refine dealt_ofShop (Shop.opened_empty terms.medium lockWait clock) fun _ => ⟨.empty, ?_⟩
    rintro time ⟨key, rental, hrental, -⟩
    cases hrental
  obtain ⟨t, dealt⟩ := run.dealt start dealing fun s => by
    rw [Nat.zero_add]
    exact few s
  obtain ⟨timely, -⟩ := dealt.rows forward
  exact ⟨t, dealt.kept.store, timely.closes, timely.apart⟩

end Floor

/-- An item is registered and rented; two minutes later it is given back and rented again. -/
def handover : List (Move Nat Script.Answer) :=
  let later := (Instant.ofMillis? 120000 0).getD .epoch
  servings ⟨.standard, .archive⟩ [(0, .register (.new 1 "Heat")), (1, .call (.rent 7 1))]
      [(0, 9), (1, 30)] [] ++
    .turns ⟨later, 0, [], .empty⟩ ::
      servings ⟨.standard, .archive⟩ [(2, .call (.pay 1 7)), (3, .call (.rent 8 1))]
        [(2, 40), (3, 30)] []

theorem served_handover (f : Floor Nat Script.Answer) :
    ∀ e ∈ (f.follow handover).1, e.Served ⟨.standard, .archive⟩ := by
  refine served_of_serves fun m hm => ?_
  rcases List.mem_append.1 hm with hm | hm
  · exact serves_servings m hm
  · rcases List.mem_cons.1 hm with rfl | hm
    · trivial
    · exact serves_servings m hm

theorem Floor.Run.possession_handover :
    let f := (ofShop (Shop.opened (.empty .archive) .fresh 100 .epoch)).follow handover
    (f.2.shop.store.rental? 2).toOption.join.isSome = true ∧
      (readings f.1).Pairwise (· ≤ ·) ∧
      ∃ t : Tables, f.2.shop.store = t.keptIn .archive ∧
        (∀ key rental back, t.rentals.get? key = some rental → rental.returnedAt = some back →
          rental.rentedAt ≤ back) ∧
        ∀ key key' rental rental', key ≠ key' → t.rentals.get? key = some rental →
          t.rentals.get? key' = some rental' → rental.itemId = rental'.itemId →
          rental.Before rental' ∨ rental'.Before rental := by
  have checked :
      let f := (ofShop (Shop.opened (.empty .archive) .fresh 100 .epoch)).follow handover
      (f.2.shop.store.rental? 2).toOption.join.isSome = true ∧
        (readings f.1).Pairwise (· ≤ ·) := by decide +kernel
  obtain ⟨rented, forward⟩ := checked
  refine ⟨rented, forward, ?_⟩
  refine Floor.Run.possession ⟨.standard, .archive⟩ 100 .epoch (run_follow _ handover)
    (served_handover _) forward fun s => ?_
  exact Nat.lt_of_le_of_lt (draws_follow_le _ handover s) (by decide +kernel)

end RentalDesk
