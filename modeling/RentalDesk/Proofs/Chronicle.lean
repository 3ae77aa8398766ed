import RentalDesk.Proofs.Errand
import RentalDesk.Proofs.Floor

/-!
# Chronicles

A chronicle is written from the events on the floor alone. For every visit it keeps a diary: the
last reading of the clock, the identifiers that were drawn, and whether a store call failed or a row
was refused. It also keeps the commits in their order, each with the reading and the identifiers of
its visit, so that the same errands can be done again one after another.
-/

namespace RentalDesk

/-- A visit has an errand, and a number that tells it from other visits with the same errand. -/
structure Visit where
  number : Nat
  errand : Errand
deriving DecidableEq

namespace Deed

def draws? : Deed → Option Series
  | .did (.insertRental _) _ => some .rentals
  | .did (.insertFee _) _ => some .fees
  | .did (.insertInvoice _) _ => some .invoices
  | _ => none

def commits : Deed → Bool
  | .did .apply _ => true
  | .did (.registerItem _) (.ok true) => true
  | _ => false

end Deed

/-- What a visit has met with. -/
structure Diary where
  now : Instant
  ids : Sequences
  drawn : List Series
  hindered : Bool

namespace Diary

/-- The diary of a visit that has just come. -/
def blank : Diary := ⟨.epoch, .fresh, [], false⟩

def note (d : Diary) : Deed → Diary
  | .did .now time => { d with now := time }
  | .did (.insertRental _) row =>
    { d with ids := { d.ids with rentals := ⟨row.id⟩ }, drawn := .rentals :: d.drawn }
  | .did (.insertFee _) row =>
    { d with ids := { d.ids with fees := ⟨row.id⟩ }, drawn := .fees :: d.drawn }
  | .did (.insertInvoice _) row =>
    { d with ids := { d.ids with invoices := ⟨row.id⟩ }, drawn := .invoices :: d.drawn }
  | .did (.fails _) true => { d with hindered := true }
  | .gaveUp _ => { d with hindered := true }
  | _ => d

end Diary

/-- A commit, with what its visit has read from the clock and drawn. -/
structure Entry where
  visit : Visit
  now : Instant
  ids : Sequences

/-- The diaries of all visits, the commits, and where among them a visit's own commit stands. -/
structure Chronicle where
  diaries : Visit → Diary
  places : Visit → Option Nat
  committed : List Entry

namespace Chronicle

def blank : Chronicle := ⟨fun _ => .blank, fun _ => none, []⟩

/-- The entry of a visit's commit. -/
def entry (c : Chronicle) (v : Visit) : Entry := ⟨v, (c.diaries v).now, (c.diaries v).ids⟩

def note (c : Chronicle) (v : Visit) (deed : Deed) : Chronicle :=
  { c with diaries := Function.update c.diaries v ((c.diaries v).note deed) }

def commit (c : Chronicle) (v : Visit) : Chronicle :=
  { c with
    places := Function.update c.places v (some c.committed.length)
    committed := c.committed ++ [c.entry v] }

def write (c : Chronicle) : Event Visit Outcome → Chronicle
  | .comes v _ =>
    { c with
      diaries := Function.update c.diaries v .blank
      places := Function.update c.places v none }
  | .does v deed => if deed.commits then (c.note v deed).commit v else c.note v deed
  | .leaves _ | .turns _ => c

end Chronicle

def chronicle (events : List (Event Visit Outcome)) : Chronicle :=
  events.foldl Chronicle.write .blank

/-- How many identifiers of a series are drawn in a run. -/
def drawn (events : List (Event Visit Outcome)) (s : Series) : Nat :=
  events.countP fun
    | .does _ deed => deed.draws? = some s
    | _ => false

namespace Event

/-- Everybody comes with the task of the errand, and no row is hidden. -/
def Ordinary (tariff : Tariff) : Event Visit Outcome → Prop
  | .comes v task => task = v.errand.task ⟨tariff, .memory⟩
  | .turns o => .hideItem ∉ o.failing
  | _ => True

end Event

/-! ## Diaries and sequences -/

theorem Sequences.ext_next {a b : Sequences} (h : ∀ series, a.next series = b.next series) :
    a = b := by
  obtain ⟨⟨r⟩, ⟨f⟩, ⟨i⟩⟩ := a
  obtain ⟨⟨r'⟩, ⟨f'⟩, ⟨i'⟩⟩ := b
  obtain rfl : r = r' := h .rentals
  obtain rfl : f = f' := h .fees
  obtain rfl : i = i' := h .invoices
  rfl

theorem Diary.mem_drawn_note {d : Diary} {deed : Deed} {series : Series} :
    series ∈ (d.note deed).drawn ↔ deed.draws? = some series ∨ series ∈ d.drawn := by
  cases deed with
  | did action answer =>
      cases action
      case fails call => cases answer <;> simp [Diary.note, Deed.draws?]
      all_goals simp [Diary.note, Deed.draws?, eq_comm]
  | _ => simp [Diary.note, Deed.draws?]

namespace Shop

variable (shop : Shop) (writes : WriteSet) (action : Action) (series : Series)

/-- Drawing an identifier is all that moves a sequence. -/
theorem perform_next : (shop.perform writes action).2.1.sequences.next series =
    if (Deed.did action (shop.perform writes action).1).draws? = some series then
      shop.sequences.next series + 1
    else shop.sequences.next series := by
  cases action
  case insertRental row => cases series <;> rfl
  case insertFee row => cases series <;> rfl
  case insertInvoice row => cases series <;> rfl
  case registerItem item =>
      simp only [perform]
      split <;> rfl
  case updateItem item =>
      simp only [perform, staged_shop]
      rfl
  case updateRental rental =>
      simp only [perform, staged_shop]
      rfl
  case updateFee fee =>
      simp only [perform, staged_shop]
      rfl
  all_goals rfl

/-- A diary keeps the identifiers as they are drawn. -/
theorem note_next (d : Diary) :
    (d.note (.did action (shop.perform writes action).1)).ids.next series =
      if (Deed.did action (shop.perform writes action).1).draws? = some series then
        shop.sequences.next series
      else d.ids.next series := by
  cases action
  case insertRental row => cases series <;> rfl
  case insertFee row => cases series <;> rfl
  case insertInvoice row => cases series <;> rfl
  case fails call =>
      simp only [perform]
      cases shop.failing.contains call <;> rfl
  all_goals rfl

/-- What a transaction has drawn after an action is what it had drawn and what the action draws. -/
theorem drew_perform {id : UInt64} (h : (shop.perform writes action).2.2.drew series id) :
    (Deed.did action (shop.perform writes action).1).draws? = some series ∧
        id = shop.sequences.next series ∨ writes.drew series id := by
  have staged : ∀ result : Except Error WriteSet,
      (∀ w, result = .ok w → w.drew series id → writes.drew series id) →
      (shop.staged writes result).2.2.drew series id → writes.drew series id := fun result hok =>
    staged_cases (P := fun _ w => w.drew series id → writes.drew series id) hok fun hdrew => hdrew
  cases action
  case insertRental row =>
      simp only [perform, WriteSet.drew_insertRental, Bool.or_eq_true, decide_eq_true_eq] at h
      rcases h with ⟨rfl, hid⟩ | hdrew
      · exact .inl ⟨rfl, hid⟩
      · exact .inr hdrew
  case insertFee row =>
      simp only [perform, WriteSet.drew_insertFee, Bool.or_eq_true, decide_eq_true_eq] at h
      rcases h with ⟨rfl, hid⟩ | hdrew
      · exact .inl ⟨rfl, hid⟩
      · exact .inr hdrew
  case insertInvoice row =>
      simp only [perform, WriteSet.drew_insertInvoice, Bool.or_eq_true, decide_eq_true_eq] at h
      rcases h with ⟨rfl, hid⟩ | hdrew
      · exact .inl ⟨rfl, hid⟩
      · exact .inr hdrew
  case updateItem item =>
      refine .inr (staged _ (fun w hw => ?_) h)
      obtain ⟨-, rfl⟩ := WriteSet.stageItem_eq_ok hw
      have hinvoices : (writes.staged.putItem item).invoices = writes.staged.invoices := rfl
      exact fun hdrew => by rwa [WriteSet.drew_withStaged hinvoices] at hdrew
  case updateRental rental =>
      refine .inr (staged _ (fun w hw => ?_) h)
      obtain ⟨-, rfl⟩ := WriteSet.stageRental_eq_ok hw
      have hinvoices : (writes.staged.putRental rental).invoices = writes.staged.invoices := rfl
      exact fun hdrew => by rwa [WriteSet.drew_withStaged hinvoices] at hdrew
  case updateFee fee =>
      refine .inr (staged _ (fun w hw => ?_) h)
      obtain ⟨_, -, hw⟩ := stageFee_of_bind hw
      obtain ⟨-, rfl⟩ := WriteSet.stageFee_eq_ok hw
      have hinvoices : (writes.staged.putFee fee).invoices = writes.staged.invoices := rfl
      exact fun hdrew => by rwa [WriteSet.drew_withStaged hinvoices] at hdrew
  case registerItem item =>
      refine .inr ?_
      simp only [perform] at h
      split at h <;> exact h
  case release => simp [perform] at h
  case discard => simp [perform] at h
  all_goals exact .inr h

end Shop

/-! ## Chronicles along a run -/

theorem chronicle_append (events : List (Event Visit Outcome)) (e : Event Visit Outcome) :
    chronicle (events ++ [e]) = (chronicle events).write e := by
  rw [chronicle, List.foldl_append, List.foldl_cons, List.foldl_nil, chronicle]

theorem drawn_append (events more : List (Event Visit Outcome)) (s : Series) :
    drawn (events ++ more) s = drawn events s + drawn more s := List.countP_append

theorem drawn_does (v : Visit) (deed : Deed) (s : Series) :
    drawn [.does v deed] s = if deed.draws? = some s then 1 else 0 := by
  by_cases h : deed.draws? = some s <;> simp [drawn, h]

theorem drawn_pos {v : Visit} {deed : Deed} {s : Series} (h : deed.draws? = some s) :
    0 < drawn [.does v deed] s := by
  rw [drawn_does, if_pos h]
  exact Nat.one_pos

namespace Chronicle

variable (c : Chronicle) (v w : Visit) (deed : Deed)

theorem committed_write (e : Event Visit Outcome) : ∃ more, (c.write e).committed =
    c.committed ++ more := by
  cases e with
  | comes v task => exact ⟨[], (List.append_nil _).symm⟩
  | does v deed =>
      rw [write]
      split
      · exact ⟨_, rfl⟩
      · exact ⟨[], (List.append_nil _).symm⟩
  | leaves v => exact ⟨[], (List.append_nil _).symm⟩
  | turns o => exact ⟨[], (List.append_nil _).symm⟩

theorem note_of_commits {deed : Deed} (h : deed.commits = true) (d : Diary) : d.note deed = d := by
  cases deed with
  | did action answer => cases action <;> first | rfl | cases h
  | _ => cases h

theorem write_of_commits (h : deed.commits = true) :
    c.write (.does v deed) = (c.note v deed).commit v := if_pos h

theorem write_of_not_commits (h : deed.commits = false) :
    c.write (.does v deed) = c.note v deed := if_neg (by rw [h]; exact Bool.false_ne_true)

@[simp] theorem diaries_note_self : (c.note v deed).diaries v = (c.diaries v).note deed :=
  Function.update_self ..

theorem diaries_does : (c.write (.does v deed)).diaries =
    Function.update c.diaries v ((c.diaries v).note deed) := by
  rw [write]
  split <;> rfl

@[simp] theorem diaries_comes_self (task : Task Outcome) :
    (c.write (.comes v task)).diaries v = .blank := Function.update_self ..

@[simp] theorem places_comes_self (task : Task Outcome) :
    (c.write (.comes v task)).places v = none := Function.update_self ..

@[simp] theorem places_commit_self : (c.commit v).places v = some c.committed.length :=
  Function.update_self ..

/-- Nobody commits for somebody else. -/
theorem mem_committed_write {e : Event Visit Outcome} {entry : Entry}
    (h : entry ∈ (c.write e).committed) :
    entry ∈ c.committed ∨ e.name? = some entry.visit := by
  cases e with
  | does v deed =>
      cases hdeed : deed.commits with
      | false => exact .inl (by rwa [write_of_not_commits c v deed hdeed] at h)
      | true =>
          rw [write_of_commits c v deed hdeed] at h
          rcases List.mem_append.1 h with h | h
          · exact .inl h
          · exact .inr (by rw [List.mem_singleton.1 h]; rfl)
  | _ => exact .inl h

/-- An event changes the diary and the place of nobody else. -/
theorem write_of_ne {e : Event Visit Outcome} {w : Visit} (h : e.name? ≠ some w) :
    (c.write e).diaries w = c.diaries w ∧ (c.write e).places w = c.places w := by
  have hne : ∀ v, e.name? = some v → w ≠ v := fun v hv hw => h (hw ▸ hv)
  cases e with
  | comes v task =>
      exact ⟨Function.update_of_ne (hne v rfl) .., Function.update_of_ne (hne v rfl) ..⟩
  | does v deed =>
      have hdiary := Function.update_of_ne (hne v rfl) ((c.diaries v).note deed) c.diaries
      cases hdeed : deed.commits with
      | false =>
          rw [write_of_not_commits c v deed hdeed]
          exact ⟨hdiary, rfl⟩
      | true =>
          rw [write_of_commits c v deed hdeed]
          exact ⟨hdiary, Function.update_of_ne (hne v rfl) ..⟩
  | leaves v => exact ⟨rfl, rfl⟩
  | turns o => exact ⟨rfl, rfl⟩

end Chronicle

theorem chronicle_committed_append (events more : List (Event Visit Outcome)) :
    (chronicle events).committed <+: (chronicle (events ++ more)).committed := by
  induction more generalizing events with
  | nil => exact (List.append_nil events).symm ▸ List.prefix_rfl
  | cons e more ih =>
      obtain ⟨added, hadded⟩ := (chronicle events).committed_write e
      have hevent : (chronicle events).committed <+: (chronicle (events ++ [e])).committed := by
        rw [chronicle_append, hadded]
        exact List.prefix_append ..
      have hmore := hevent.trans (ih (events ++ [e]))
      rwa [List.append_assoc, List.singleton_append] at hmore

end RentalDesk
