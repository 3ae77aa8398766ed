import RentalDesk.Proofs.Dealing.Reached

/-!
# What is seen of the rows in passing

Somebody who looks at the rows without locks looks in several steps, and others may commit between
any two of them. `sighted` is the discipline of those who only look; its situation is the list of
all tables that were there when they did something. Whatever is shown of a task by the rules for
this discipline is true of it on a floor where others are at work, and `Floor.Meets` says that the
tables were there during the run, in this order. It is also true of the task in a shop where nobody
else is, and there all the tables are the same.
-/

namespace RentalDesk

variable {α : Type} {medium : Medium} {t : Tables}

/-- What a look at the tables shows. -/
def Tables.looked (t : Tables) (medium : Medium) : (what : Look) → what.Answer
  | .item id => t.items.get? id
  | .items => t.items.values
  | .rentals => t.rentals.values
  | .fees => t.fees.values.map medium.fee
  | .invoices => t.invoices.values.map medium.invoice
  | .ledger => (t.fees.values.map medium.fee, t.rentals.values)

theorem Shop.look_keptIn {shop : Shop} (store : shop.store = t.keptIn medium) (what : Look) :
    shop.look what = .ok (t.looked medium what) := by
  cases what with
  | ledger =>
      rw [look, store, Tables.fees_keptIn, Tables.rentals_keptIn]
      rfl
  | _ => simp [look, store, Tables.looked]

/-- A harmless action leaves the store and the write set as they are. -/
theorem Shop.perform_passes (shop : Shop) (writes : WriteSet) {action : Action}
    (passes : action.passes = true) : (shop.perform writes action).2.1.store = shop.store ∧
      (shop.perform writes action).2.2 = writes := by
  cases action <;> first | exact ⟨rfl, rfl⟩ | cases passes

/-! ## Successions of tables -/

namespace Policy

variable {p : Policy} {t' : Tables} {ts : List Tables}

/-- What goes on from tables goes on from the tables before them. -/
theorem Onward.pairwise_cons (onward : p.Onward t t') (sound : p.Sound medium)
    (later : (t' :: ts).Pairwise p.Onward) : (t :: ts).Pairwise p.Onward := by
  obtain ⟨first, later⟩ := List.pairwise_cons.1 later
  exact List.pairwise_cons.2 ⟨fun u hu => onward.trans sound (first u hu), later⟩

/-- The first tables of a succession can be noted twice. -/
theorem Sound.pairwise_twice (sound : p.Sound medium) (later : (t :: ts).Pairwise p.Onward) :
    (t :: t :: ts).Pairwise p.Onward := by
  refine List.pairwise_cons.2 ⟨fun u hu => ?_, later⟩
  rcases List.mem_cons.1 hu with rfl | hu
  · exact .refl sound u
  · exact (List.pairwise_cons.1 later).1 u hu

end Policy

/-! ## The discipline -/

/-- Every action is answered by some shop of the given kind, and the tables of this shop are added
to those that were seen so far. -/
def sighted (medium : Medium) (may : Shop → Prop) : Discipline (List Tables) where
  permits _ _ := True
  answers seen action answer seen' := ∃ shop t, may shop ∧ shop.store = t.keptIn medium ∧
    answer = (shop.perform .empty action).1 ∧ seen' = seen ++ [t]
  grants _ _ _ _ := False

namespace Operation

variable {may : Shop → Prop} {seen : List Tables} {failed : Error → List Tables → Prop}

theorem sights_look {what : Look} {ok : what.Answer → List Tables → Prop}
    (h : ∀ t, ok (t.looked medium what) (seen ++ [t])) :
    (look what).Follows (sighted medium may) seen ok failed := by
  refine follows_bind.2 (follows_perform.2 ⟨trivial, ?_⟩)
  rintro _ _ ⟨shop, t, -, store, rfl, rfl⟩
  rw [show (shop.perform .empty (.look what)).1 = .ok (t.looked medium what) from
    Shop.look_keptIn store what]
  exact h t

theorem sights_now {ok : Instant → List Tables → Prop}
    (h : ∀ shop t, may shop → ok shop.clock (seen ++ [t])) :
    (perform .now).Follows (sighted medium may) seen ok failed := by
  refine follows_perform.2 ⟨trivial, ?_⟩
  rintro _ _ ⟨shop, t, hmay, -, rfl, rfl⟩
  exact h shop t hmay

theorem sights_checked {call : StoreCall} {x : Operation α} {ok : α → List Tables → Prop}
    (fails : ∀ shop t, may shop → shop.failing.contains call = true →
      failed (.storage (.injected call)) (seen ++ [t]))
    (h : ∀ t, x.Follows (sighted medium may) (seen ++ [t]) ok failed) :
    (checked call x).Follows (sighted medium may) seen ok failed := by
  refine follows_bind.2 (follows_bind.2 (follows_perform.2 ⟨trivial, ?_⟩))
  rintro _ _ ⟨shop, t, hmay, -, rfl, rfl⟩
  change Follows _ (if shop.failing.contains call = true then _ else _) _ _ _
  split
  · next hfails => exact follows_throw.2 (fails shop t hmay hfails)
  · exact h t

end Operation

/-- Somebody who only looks in a shop where nobody else is, and where no call fails, sees nothing
but its tables, and it is always the same time. -/
theorem Shop.advance_sighted {shop : Shop} (store : shop.store = t.keptIn medium)
    (calm : shop.failing = []) {task : Task α} (quiet : task.Only Action.passes)
    {seen : List Tables} {ends : α → List Tables → Prop}
    (follows : task.Follows
      (sighted medium fun other => other.failing = [] ∧ other.clock = shop.clock) seen ends) :
    ∃ shop' a seen', Session.advance shop .empty task = (shop', ⟨.empty, .running (.done a)⟩) ∧
      (∀ t' ∈ seen', t' ∈ seen ∨ t' = t) ∧ ends a seen' := by
  induction task generalizing shop seen with
  | done a => exact ⟨shop, a, seen, rfl, fun _ => .inl, follows⟩
  | act action next ih =>
      obtain ⟨passes, quiet⟩ := quiet
      obtain ⟨hstore, hwrites⟩ := shop.perform_passes .empty passes
      obtain ⟨hclock, hfailing⟩ := shop.perform_clock .empty action
      have rest := follows.2 _ _ ⟨shop, t, ⟨calm, rfl⟩, store, rfl, rfl⟩
      rw [← hclock] at rest
      obtain ⟨shop', a, seen', hadvance, same, hends⟩ :=
        ih _ (hstore.trans store) (hfailing.trans calm) (quiet _) rest
      refine ⟨shop', a, seen', ?_, fun t' ht' => ?_, hends⟩
      · rw [← hadvance, Session.advance]
        simp only [hwrites]
      · have := same t' ht'
        simp only [List.mem_append, List.mem_singleton] at this
        tauto
  | acquire key next ih => exact quiet.elim

namespace Floor

variable {ν ρ : Type} [DecidableEq ν] {f g h : Floor ν ρ} {e : Event ν ρ}
  {events more : List (Event ν ρ)} {ts : List Tables}

/-! ## Tables that are there during a run -/

/-- Each of the tables is there at some time of the run, in this order. -/
def Meets (medium : Medium) :
    Floor ν ρ → List (Event ν ρ) → List Tables → Floor ν ρ → Prop
  | f, events, [], g => f.Run events g
  | f, events, t :: ts, g => ∃ before after h, events = before ++ after ∧ f.Run before h ∧
      h.shop.store = t.keptIn medium ∧ Meets medium h after ts g

namespace Meets

theorem now (store : f.shop.store = t.keptIn medium) (meets : f.Meets medium events ts g) :
    f.Meets medium events (t :: ts) g := ⟨[], events, f, rfl, .nil, store, meets⟩

theorem append (run : f.Run events h) (meets : h.Meets medium more ts g) :
    f.Meets medium (events ++ more) ts g := by
  cases ts with
  | nil => exact run.append meets
  | cons t ts =>
      obtain ⟨before, after, k, rfl, run', store, rest⟩ := meets
      exact ⟨events ++ before, after, k, (List.append_assoc ..).symm, run.append run', store, rest⟩

theorem cons (step : f.Step e h) (meets : h.Meets medium events ts g) :
    f.Meets medium (e :: events) ts g := meets.append (.cons step .nil)

theorem sublist {some : List Tables} (meets : f.Meets medium events ts g)
    (sub : some.Sublist ts) : f.Meets medium events some g := by
  induction sub generalizing f events with
  | slnil => exact meets
  | cons t sub ih =>
      obtain ⟨before, after, h, rfl, run, -, rest⟩ := meets
      exact (ih rest).append run
  | cons_cons t sub ih =>
      obtain ⟨before, after, h, hevents, run, store, rest⟩ := meets
      exact ⟨before, after, h, hevents, run, store, ih rest⟩

end Meets

end Floor

namespace Session

variable {ρ : Type} {shop shop₁ shop₂ : Shop} {s s₁ s₂ : Session ρ} {deed : Deed}

theorem Step.unique (step : Step shop s deed shop₁ s₁) (other : Step shop s deed shop₂ s₂) :
    shop₁ = shop₂ ∧ s₁ = s₂ := by
  cases step with
  | act => cases other with | act => exact ⟨rfl, rfl⟩
  | pass => cases other with | pass => exact ⟨rfl, rfl⟩
  | ask => cases other with | ask => exact ⟨rfl, rfl⟩
  | take granted =>
      cases other with
      | take granted' =>
          obtain rfl := Option.some.inj (granted.symm.trans granted')
          exact ⟨rfl, rfl⟩
  | giveUp => cases other with | giveUp => exact ⟨rfl, rfl⟩

end Session

namespace Floor

variable {ν ρ : Type} [DecidableEq ν] {f g h : Floor ν ρ} {e : Event ν ρ}
  {before after : List (Event ν ρ)} {ms : List (Move ν ρ)}

/-- An event leads to one floor only. -/
theorem Step.unique (step : f.Step e g) (other : f.Step e h) : g = h := by
  cases step with
  | comes => cases other with | comes => rfl
  | does present step =>
      cases other with
      | does present' step' =>
          obtain rfl := Option.some.inj (present.symm.trans present')
          obtain ⟨rfl, rfl⟩ := step.unique step'
          rfl
  | leaves present =>
      cases other with
      | leaves present' =>
          obtain rfl := Option.some.inj (present.symm.trans present')
          rfl
  | turns => cases other with | turns => rfl

/-- The stores that a schedule comes by. -/
def stores (f : Floor ν ρ) : List (Move ν ρ) → List Store
  | [] => [f.shop.store]
  | m :: ms => f.shop.store ::
    match f.move? m with
    | some (_, g) => g.stores ms
    | none => f.stores ms

theorem Run.mem_stores (run : f.Run before h) (prefixes : (f.follow ms).1 = before ++ after) :
    h.shop.store ∈ f.stores ms := by
  induction ms generalizing f before with
  | nil =>
      obtain ⟨rfl, -⟩ := List.append_eq_nil_iff.1 prefixes.symm
      rw [run.eq_of_nil]
      exact List.mem_singleton_self _
  | cons m ms ih =>
      cases before with
      | nil =>
          rw [run.eq_of_nil]
          exact List.mem_cons_self
      | cons e before =>
          refine List.mem_cons_of_mem _ ?_
          cases hmove : f.move? m with
          | none =>
              simp only [follow, hmove] at prefixes
              exact ih run prefixes
          | some next =>
              simp only [follow, hmove] at prefixes
              obtain ⟨rfl, remaining⟩ := List.cons.inj prefixes
              obtain ⟨k, step, rest⟩ := run.uncons
              obtain rfl := step.unique (step_of_move hmove)
              exact ih rest remaining

theorem Meets.mem_stores (meets : f.Meets medium (f.follow ms).1 [t] g) :
    t.keptIn medium ∈ f.stores ms := by
  obtain ⟨before, after, h, prefixes, run, store, -⟩ := meets
  exact store ▸ run.mem_stores prefixes

end Floor

/-- The event neither opens nor drops a session of the name. -/
def Event.Bears {ν ρ : Type} (v : ν) : Event ν ρ → Prop
  | .comes w _ | .leaves w => w ≠ v
  | .does _ _ | .turns _ => True

def Move.Bears {ν ρ : Type} (v : ν) : Move ν ρ → Prop
  | .comes w _ | .leaves w => w ≠ v
  | .goesOn _ | .givesUp _ | .turns _ => True

instance {ν ρ : Type} [DecidableEq ν] (v : ν) : (m : Move ν ρ) → Decidable (m.Bears v)
  | .comes w _ | .leaves w => inferInstanceAs (Decidable (w ≠ v))
  | .goesOn _ | .givesUp _ | .turns _ => inferInstanceAs (Decidable True)

namespace Floor

variable {ν ρ : Type} [DecidableEq ν] {f g : Floor ν ρ} {terms : Terms} {r : Regard ν terms}
  {last : Series → Nat} {times : List Instant} {events : List (Event ν ρ)} {v : ν}
  {seen : List Tables} {ends : ρ → List Tables → Prop}

theorem bears_follow {ms : List (Move ν ρ)} (h : ∀ m ∈ ms, m.Bears v) :
    ∀ e ∈ (f.follow ms).1, e.Bears v := by
  intro e he
  obtain ⟨m, hm, brings⟩ := mem_follow he
  have bears := h m hm
  cases m with
  | comes w task => exact brings ▸ bears
  | leaves w => exact brings ▸ bears
  | turns o => exact brings ▸ bears
  | goesOn w =>
      obtain ⟨deed, rfl⟩ := brings
      trivial
  | givesUp w =>
      obtain ⟨deed, rfl⟩ := brings
      trivial

/-- A session that only looks does one step of its own, or is left as it is. -/
theorem Step.looks {e : Event ν ρ} (step : f.Step e g) (bears : e.Bears v) {task : Task ρ}
    (present : f.sessions v = some ⟨.empty, .running task⟩) (quiet : task.Only Action.passes) :
    g.sessions v = f.sessions v ∨ ∃ action next, task = .act action next ∧
      g.sessions v = some ⟨.empty, .running (next (f.shop.perform .empty action).1)⟩ := by
  by_cases hv : e.name? = some v
  · cases step with
    | comes => exact absurd (Option.some.inj hv) bears
    | leaves => exact absurd (Option.some.inj hv) bears
    | turns => exact .inl rfl
    | @does w s s' deed shop present' step =>
        obtain rfl := Option.some.inj hv
        obtain rfl := Option.some.inj (present'.symm.trans present)
        cases step with
        | @act _ action next =>
            refine .inr ⟨action, next, rfl, ?_⟩
            rw [put_sessions_self, (f.shop.perform_passes .empty quiet.1).2]
        | pass => exact quiet.elim
        | ask => exact quiet.elim
  · exact .inl (step.sessions_of_ne hv)

/-- Whoever only looks, while others are at dealings and calls fail at will, ends as was shown of
the tables that are there during the run. The later ones keep the history of the earlier ones. -/
theorem Dealt.sights (h : f.Dealt r t last times) (run : f.Run events g)
    (dealing : ∀ e ∈ events, e.Dealing r) (few : ∀ s, last s + draws events s < UInt64.size)
    (bears : ∀ e ∈ events, e.Bears v) {task : Task ρ}
    (present : f.sessions v = some ⟨.empty, .running task⟩) (quiet : task.Only Action.passes)
    (follows : task.Follows (sighted terms.medium fun _ => True) seen ends) {answer : ρ}
    (ended : (g.sessions v).bind Session.result? = some answer) :
    ∃ ts, f.Meets terms.medium events ts g ∧ (t :: ts).Pairwise Policy.history.Onward ∧
      (∀ t' ∈ ts, ∃ times', r.rows t' times') ∧ ends answer (seen ++ ts) := by
  have sound := Policy.history_sound terms.medium
  induction events generalizing f t last times task seen with
  | nil =>
      obtain rfl := run.eq_of_nil
      rw [present, Option.bind_some] at ended
      have follows : Session.Follows _ ⟨.empty, .running task⟩ seen ends := follows
      refine ⟨[], .nil, List.pairwise_singleton .., nofun, ?_⟩
      rw [List.append_nil]
      exact follows.ends ended
  | cons e events ih =>
      obtain ⟨f', step, rest⟩ := run.uncons
      rw [List.forall_mem_cons] at dealing bears
      have few' : ∀ s, e.tally last s + draws events s < UInt64.size := by
        intro s
        have := few s
        rw [← List.singleton_append, draws_append] at this
        rw [Event.tally_eq]
        omega
      have dealt := h.step step dealing.1 fun s => Nat.lt_of_le_of_lt (Nat.le_add_right ..) (few' s)
      have onward := h.kept.onward sound step
      rcases step.looks bears.1 present quiet with same | ⟨action, next, rfl, moved⟩
      · obtain ⟨ts, meets, later, rows, hends⟩ := ih dealt rest dealing.2 few' bears.2
          (same.trans present) quiet follows
        exact ⟨ts, meets.cons step, onward.pairwise_cons sound later, rows, hends⟩
      · obtain ⟨ts, meets, later, rows, hends⟩ := ih dealt rest dealing.2 few' bears.2 moved
          (quiet.2 _) (follows.2 _ _ ⟨f.shop, t, trivial, h.kept.store, rfl, rfl⟩)
        refine ⟨t :: ts, (meets.cons step).now h.kept.store, ?_, ?_, ?_⟩
        · exact sound.pairwise_twice (onward.pairwise_cons sound later)
        · exact List.forall_mem_cons.2 ⟨⟨times, h.rows⟩, rows⟩
        · rwa [List.append_assoc, List.singleton_append] at hends

end Floor

end RentalDesk
