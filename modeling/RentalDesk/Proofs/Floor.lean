import Mathlib.Logic.Function.Basic
import RentalDesk.Proofs.Claims
import RentalDesk.Proofs.Writes
import RentalDesk.Session

/-!
# The floor

On the floor any session may take the next step. A step of a session is one action, or one move
towards a row lock: asking for the row, being granted it, or giving up, which may happen at any
time whatever the deadline was. Between the steps sessions come and are dropped, and the clock, the
timer and the store calls that fail change at will. A desk lets its sessions take turns in one
particular order; what holds after every run of the floor holds for every order.

A run is given by its events. `Floor.Run.serves` says that the row locks and the tickets of the
sessions stay in step, so that no two sessions ever hold the same row.
-/

namespace RentalDesk

/-- What a session does in one step. -/
inductive Deed where
  | did (action : Action) (answer : action.Answer)
  /-- Went on with a row that it can write already. -/
  | passed (key : RowKey)
  | asked (key : RowKey)
  | took (ticket : Ticket)
  | gaveUp (ticket : Ticket)

namespace Session

variable {ρ : Type}

/-- One step of a session, and what it does to the shop. -/
inductive Step : Shop → Session ρ → Deed → Shop → Session ρ → Prop
  | act {shop : Shop} {writes : WriteSet} {action : Action} {next : action.Answer → Task ρ} :
      Step shop ⟨writes, .running (.act action next)⟩
        (.did action (shop.perform writes action).1)
        (shop.perform writes action).2.1
        ⟨(shop.perform writes action).2.2,
          .running (next (shop.perform writes action).1)⟩
  | pass {shop : Shop} {writes : WriteSet} {key : RowKey} {next : Bool → Task ρ}
      (holds : writes.holds key) :
      Step shop ⟨writes, .running (.acquire key next)⟩ (.passed key) shop
        ⟨writes, .running (next true)⟩
  | ask {shop : Shop} {writes : WriteSet} {key : RowKey} {next : Bool → Task ρ}
      (holds : ¬ writes.holds key) :
      Step shop ⟨writes, .running (.acquire key next)⟩ (.asked key)
        { shop with locks := (shop.locks.request key).2 }
        ⟨writes, .waiting (shop.locks.request key).1 (shop.timer + shop.lockWait) next⟩
  | take {shop : Shop} {writes : WriteSet} {ticket : Ticket} {deadline : Nat}
      {next : Bool → Task ρ} {locks : RowLocks} (granted : shop.locks.grant? ticket = some locks) :
      Step shop ⟨writes, .waiting ticket deadline next⟩ (.took ticket) { shop with locks }
        ⟨writes.hold ticket, .running (next true)⟩
  | giveUp {shop : Shop} {writes : WriteSet} {ticket : Ticket} {deadline : Nat}
      {next : Bool → Task ρ} :
      Step shop ⟨writes, .waiting ticket deadline next⟩ (.gaveUp ticket)
        { shop with locks := shop.locks.giveBack ticket } ⟨writes, .running (next false)⟩

def claims (s : Session ρ) : Claims := ⟨s.writes.held, s.wait?.map (·.1)⟩

@[simp] theorem claims_start (task : Task ρ) : (start task).claims = .none := rfl

@[simp] theorem claims_running (writes : WriteSet) (task : Task ρ) :
    claims ⟨writes, .running task⟩ = ⟨writes.held, none⟩ := rfl

@[simp] theorem claims_waiting (writes : WriteSet) (ticket : Ticket) (deadline : Nat)
    (next : Bool → Task ρ) :
    claims ⟨writes, .waiting ticket deadline next⟩ = ⟨writes.held, some ticket⟩ := rfl

end Session

/-- What changes without any session: the clock, the timer, the store calls that fail, and the
returns that nobody has taken yet. -/
structure Outside where
  clock : Instant
  timer : Nat
  failing : List StoreCall
  returns : Returns

def Shop.under (shop : Shop) (o : Outside) : Shop :=
  { shop with clock := o.clock, timer := o.timer, failing := o.failing, returns := o.returns }

/-- A shop and the sessions in it, by their names. -/
structure Floor (ν ρ : Type) where
  shop : Shop
  sessions : ν → Option (Session ρ)

/-- What happens on the floor. -/
inductive Event (ν ρ : Type) where
  | comes (name : ν) (task : Task ρ)
  | does (name : ν) (deed : Deed)
  | leaves (name : ν)
  | turns (o : Outside)

/-- Whose session an event is about. -/
def Event.name? {ν ρ : Type} : Event ν ρ → Option ν
  | .comes v _ | .does v _ | .leaves v => some v
  | .turns _ => none

namespace Floor

variable {ν ρ : Type}

/-- The floor of a shop in which nobody is at work. -/
def ofShop (shop : Shop) : Floor ν ρ := ⟨shop, fun _ => none⟩

/-- The tickets of everybody. -/
def claims (f : Floor ν ρ) (v : ν) : Claims := (f.sessions v).elim .none Session.claims

theorem claims_of_session {f : Floor ν ρ} {v : ν} {s : Session ρ} (h : f.sessions v = some s) :
    f.claims v = s.claims := by
  rw [claims, h, Option.elim_some]

variable [DecidableEq ν]

/-- The floor after a step of a session. -/
def put (f : Floor ν ρ) (v : ν) (shop : Shop) (s : Session ρ) : Floor ν ρ :=
  ⟨shop, Function.update f.sessions v (some s)⟩

/-- The floor without a session. -/
def remove (f : Floor ν ρ) (v : ν) (shop : Shop) : Floor ν ρ :=
  ⟨shop, Function.update f.sessions v none⟩

/-- One event on the floor. -/
inductive Step : Floor ν ρ → Event ν ρ → Floor ν ρ → Prop
  | comes {f : Floor ν ρ} {v : ν} {task : Task ρ} (absent : f.sessions v = none) :
      Step f (.comes v task) (f.put v f.shop (.start task))
  | does {f : Floor ν ρ} {v : ν} {s s' : Session ρ} {deed : Deed} {shop : Shop}
      (present : f.sessions v = some s) (step : Session.Step f.shop s deed shop s') :
      Step f (.does v deed) (f.put v shop s')
  | leaves {f : Floor ν ρ} {v : ν} {s : Session ρ} (present : f.sessions v = some s) :
      Step f (.leaves v) (f.remove v (s.drop f.shop))
  | turns {f : Floor ν ρ} {o : Outside} : Step f (.turns o) { f with shop := f.shop.under o }

/-- The events of a run, oldest first, and the floor that they lead to. -/
inductive Run (f : Floor ν ρ) : List (Event ν ρ) → Floor ν ρ → Prop
  | nil : Run f [] f
  | snoc {events : List (Event ν ρ)} {g h : Floor ν ρ} {e : Event ν ρ} (run : Run f events g)
      (step : Step g e h) : Run f (events ++ [e]) h

/-! ## Sessions and claims after an event -/

@[simp] theorem put_shop (f : Floor ν ρ) (v : ν) (shop : Shop) (s : Session ρ) :
    (f.put v shop s).shop = shop := rfl

@[simp] theorem remove_shop (f : Floor ν ρ) (v : ν) (shop : Shop) :
    (f.remove v shop).shop = shop := rfl

@[simp] theorem put_sessions_self (f : Floor ν ρ) (v : ν) (shop : Shop) (s : Session ρ) :
    (f.put v shop s).sessions v = some s := Function.update_self ..

@[simp] theorem remove_sessions_self (f : Floor ν ρ) (v : ν) (shop : Shop) :
    (f.remove v shop).sessions v = none := Function.update_self ..

theorem put_sessions_of_ne (f : Floor ν ρ) {v w : ν} (h : w ≠ v) (shop : Shop) (s : Session ρ) :
    (f.put v shop s).sessions w = f.sessions w := Function.update_of_ne h ..

theorem remove_sessions_of_ne (f : Floor ν ρ) {v w : ν} (h : w ≠ v) (shop : Shop) :
    (f.remove v shop).sessions w = f.sessions w := Function.update_of_ne h ..

/-- An event moves the session of nobody else. -/
theorem Step.sessions_of_ne {f g : Floor ν ρ} {e : Event ν ρ} {v : ν} (step : f.Step e g)
    (h : e.name? ≠ some v) : g.sessions v = f.sessions v := by
  have hne : ∀ w, e.name? = some w → v ≠ w := fun w hw hv => h (hv ▸ hw)
  cases step with
  | @comes w task absent => exact put_sessions_of_ne f (hne w rfl) ..
  | @does w s s' deed shop present step => exact put_sessions_of_ne f (hne w rfl) ..
  | @leaves w s present => exact remove_sessions_of_ne f (hne w rfl) ..
  | turns => rfl

theorem claims_put (f : Floor ν ρ) (v : ν) (shop : Shop) (s : Session ρ) :
    (f.put v shop s).claims = Function.update f.claims v s.claims := by
  funext w
  by_cases h : w = v
  · subst h
    rw [claims_of_session (put_sessions_self ..), Function.update_self]
  · rw [Function.update_of_ne h, claims, put_sessions_of_ne f h, claims]

theorem claims_remove (f : Floor ν ρ) (v : ν) (shop : Shop) :
    (f.remove v shop).claims = Function.update f.claims v .none := by
  funext w
  by_cases h : w = v
  · subst h
    rw [claims, remove_sessions_self, Function.update_self, Option.elim_none]
  · rw [Function.update_of_ne h, claims, remove_sessions_of_ne f h, claims]

theorem Run.append {f g h : Floor ν ρ} {events more : List (Event ν ρ)} (run : f.Run events g)
    (rest : g.Run more h) : f.Run (events ++ more) h := by
  induction rest with
  | nil => rwa [List.append_nil]
  | snoc _ step ih =>
      rw [← List.append_assoc]
      exact ih.snoc step

theorem Run.cons {f g h : Floor ν ρ} {e : Event ν ρ} {events : List (Event ν ρ)}
    (step : f.Step e g) (rest : g.Run events h) : f.Run (e :: events) h :=
  (Run.nil.snoc step).append rest

theorem Run.eq_of_nil {f g : Floor ν ρ} (run : f.Run [] g) : g = f := by
  generalize hlist : [] = list at run
  cases run with
  | nil => rfl
  | snoc => simp at hlist

/-- The first step of a run. -/
theorem Run.uncons {f h : Floor ν ρ} {e : Event ν ρ} {events : List (Event ν ρ)}
    (run : f.Run (e :: events) h) : ∃ g, f.Step e g ∧ g.Run events h := by
  generalize hlist : e :: events = list at run
  induction run generalizing events with
  | nil => cases hlist
  | @snoc init g h last run step ih =>
      cases init with
      | nil =>
          obtain ⟨rfl, rfl⟩ := List.cons.inj hlist
          exact ⟨h, run.eq_of_nil ▸ step, .nil⟩
      | cons e' init =>
          obtain ⟨rfl, rfl⟩ := List.cons.inj hlist
          obtain ⟨g', first, rest⟩ := ih rfl
          exact ⟨g', first, rest.snoc step⟩

/-! ## Row locks on the floor -/

/-- The claims of a session that has given everything back. -/
theorem giveBack_all_claims {claims : ν → Claims} {v : ν} {ts : List Ticket}
    (h : ∀ t ∈ (claims v).tickets, t ∈ ts) :
    Claims.giveBack claims v ts = Function.update claims v .none := by
  rw [Claims.giveBack]
  congr 1
  have hheld : (claims v).held.filter (· ∉ ts) = [] :=
    List.filter_eq_nil_iff.2 fun t ht => by simp [h t (Claims.mem_tickets.2 (.inl ht))]
  have hwaiting : (claims v).waiting.filter (· ∉ ts) = none :=
    Option.filter_eq_none_iff.2 fun t ht => by simp [h t (Claims.mem_tickets.2 (.inr ht))]
  rw [hheld, hwaiting, Claims.none]

theorem locks_drop (shop : Shop) (s : Session ρ) :
    (s.drop shop).locks = shop.locks.giveBackAll s.claims.tickets := by
  rw [Session.drop, Session.claims, Claims.tickets, RowLocks.giveBackAll, List.foldl_append]
  cases s.wait? <;> rfl

/-- Whoever is dropped leaves everything but the row locks as it is. -/
theorem drop_eq (shop : Shop) (s : Session ρ) :
    s.drop shop = { shop with locks := (s.drop shop).locks } := by
  rw [Session.drop]
  cases s.wait? <;> rfl

theorem update_claims {f : Floor ν ρ} {v : ν} {c : Claims} (h : f.claims v = c) :
    Function.update f.claims v c = f.claims := by
  rw [← h, Function.update_eq_self]

/-- A step of a session keeps the locks and the claims in step. -/
theorem serves_session {f : Floor ν ρ} {v : ν} {s s' : Session ρ} {deed : Deed} {shop : Shop}
    (h : f.shop.locks.Serves f.claims) (present : f.sessions v = some s)
    (step : Session.Step f.shop s deed shop s') :
    shop.locks.Serves (Function.update f.claims v s'.claims) := by
  have hv := claims_of_session present
  cases step with
  | @act writes action next =>
      rw [Session.claims_running] at hv ⊢
      have hback := h.giveBackAll v writes.held fun t ht =>
        Claims.mem_tickets.2 (.inl (by rwa [hv]))
      rw [giveBack_all_claims fun t ht => by simpa [hv, Claims.tickets] using ht] at hback
      rcases f.shop.perform_locks writes action with
        ⟨hlocks, hheld⟩ | ⟨hlocks, hwrites⟩ | ⟨hlocks, hwrites⟩
      · rw [hlocks, hheld, update_claims hv]
        exact h
      · rw [hlocks, hwrites]
        exact hback
      · rw [hlocks, hwrites]
        exact hback.prune
  | pass holds =>
      rw [Session.claims_running] at hv ⊢
      rw [update_claims hv]
      exact h
  | @ask writes key next holds =>
      rw [Session.claims_running] at hv
      rw [Session.claims_waiting]
      have hask := h.request (v := v) (by rw [hv]) key
      rw [Claims.ask, hv] at hask
      exact hask
  | @take writes ticket deadline next locks granted =>
      rw [Session.claims_waiting] at hv
      rw [Session.claims_running]
      have htake := h.grant (v := v) (by rw [hv]) granted
      rw [Claims.take, hv] at htake
      exact htake
  | @giveUp writes ticket deadline next =>
      rw [Session.claims_waiting] at hv
      rw [Session.claims_running]
      have hback := h.giveBackAll v [ticket] fun t ht => by
        rw [List.mem_singleton.1 ht, Claims.mem_tickets, hv]
        exact .inr rfl
      have hheld : writes.held.filter (· ∉ [ticket]) = writes.held := by
        refine List.filter_eq_self.2 fun t ht => ?_
        have hne : t ≠ ticket := by
          rintro rfl
          exact h.waiting_not_held v t (by rw [hv]) (by rwa [hv])
        simpa using hne
      have hwaiting : (some ticket).filter (· ∉ [ticket]) = none := by simp [Option.filter]
      rw [Claims.giveBack, hv, hheld, hwaiting] at hback
      exact hback

/-- The locks and the claims stay in step, whoever does what. -/
theorem Step.serves {f g : Floor ν ρ} {e : Event ν ρ} (step : f.Step e g)
    (h : f.shop.locks.Serves f.claims) : g.shop.locks.Serves g.claims := by
  cases step with
  | @comes v task absent =>
      have hv : f.claims v = .none := by rw [claims, absent, Option.elim_none]
      rw [claims_put, Session.claims_start, update_claims hv]
      exact h
  | does present step =>
      rw [claims_put]
      exact serves_session h present step
  | @leaves v s present =>
      have hv := claims_of_session present
      rw [claims_remove, remove_shop, locks_drop]
      have hback := h.giveBackAll v s.claims.tickets fun t ht => by rwa [hv]
      rwa [giveBack_all_claims fun t ht => by rwa [← hv]] at hback
  | turns => exact h

theorem Run.serves {f g : Floor ν ρ} {events : List (Event ν ρ)} (run : f.Run events g)
    (h : f.shop.locks.Serves f.claims) : g.shop.locks.Serves g.claims := by
  induction run with
  | nil => exact h
  | snoc _ step ih => exact step.serves ih

end Floor

end RentalDesk
