import RentalDesk.House
import RentalDesk.Proofs.Turns
import RentalDesk.Proofs.Wire.Stream
import RentalDesk.Proofs.Wire.Text

/-!
# Requests and replies are paired

Replies have several shapes, and the texts in them are arbitrary: titles, reasons, and the words of
requests that are none. Still the last line of a reply can be told from the lines before it without
knowing the request, whatever the store answered. So whoever reads the text of a whole service can
cut it into the replies, one for each line that is not blank, in their order.
-/

namespace RentalDesk

open Text

/-! ## Results that a task can have -/

/-- The task can end with the result, if it is answered accordingly. -/
def Task.CanEnd {α : Type} : Task α → α → Prop
  | .done a, b => b = a
  | .act _ next, b => ∃ answer, (next answer).CanEnd b
  | .acquire _ next, b => ∃ granted, (next granted).CanEnd b

def Session.CanEnd {α : Type} (s : Session α) (a : α) : Prop :=
  match s.stage with
  | .running task => task.CanEnd a
  | .waiting _ _ next => ∃ granted, (next granted).CanEnd a

section

variable {α β : Type} {a : α}

theorem Task.canEnd_bind {t : Task α} {f : α → Task β} {b : β} (h : (t >>= f).CanEnd b) :
    ∃ a, (f a).CanEnd b := by
  change (t.bind f).CanEnd b at h
  induction t with
  | done a => exact ⟨a, h⟩
  | act action next ih =>
      obtain ⟨answer, hanswer⟩ := h
      exact ih answer hanswer
  | acquire key next ih =>
      obtain ⟨granted, hgranted⟩ := h
      exact ih granted hgranted

theorem Session.canEnd_of_result {s : Session α} (h : s.result? = some a) : s.CanEnd a := by
  obtain ⟨writes, stage⟩ := s
  cases stage with
  | waiting ticket deadline next => cases h
  | running task =>
      cases task with
      | done b => exact (Option.some.inj h).symm
      | act action next => cases h
      | acquire key next => cases h

/-- A step narrows the possible results. -/
theorem Session.Step.canEnd {shop shop' : Shop} {s s' : Session α} {deed : Deed}
    (step : Step shop s deed shop' s') (h : s'.CanEnd a) : s.CanEnd a := by
  cases step with
  | act => exact ⟨_, h⟩
  | pass => exact ⟨true, h⟩
  | ask => exact h
  | take => exact ⟨true, h⟩
  | giveUp => exact ⟨false, h⟩

/-- Whatever happens on a floor, a session can only have results that its task could have. -/
theorem Floor.Run.canEnd {ν : Type} [DecidableEq ν] {f g : Floor ν α} {events : List (Event ν α)}
    {P : α → Prop} (run : f.Run events g)
    (first : ∀ v s a, f.sessions v = some s → s.CanEnd a → P a)
    (comes : ∀ v task a, .comes v task ∈ events → task.CanEnd a → P a) {v : ν} {s : Session α}
    (present : g.sessions v = some s) (h : s.CanEnd a) : P a := by
  induction run generalizing v s a with
  | nil => exact first v s a present h
  | @snoc events g g' e run step ih =>
      have earlier {v s a} := @ih a
        (fun v task a hcomes => comes v task a (List.mem_append_left _ hcomes)) v s
      by_cases hname : e.name? = some v
      · cases step with
        | @comes w task absent =>
            obtain rfl := Option.some.inj hname
            rw [Floor.put_sessions_self] at present
            obtain rfl := Option.some.inj present
            exact comes w task a (by simp) h
        | @does w t t' deed shop present' step =>
            obtain rfl := Option.some.inj hname
            rw [Floor.put_sessions_self] at present
            obtain rfl := Option.some.inj present
            exact earlier present' (step.canEnd h)
        | @leaves w t present' =>
            obtain rfl := Option.some.inj hname
            rw [Floor.remove_sessions_self] at present
            cases present
        | turns => cases hname
      · rw [step.sessions_of_ne hname] at present
        exact earlier present h

end

/-! ## Replies that are given -/

/-- The reply is given to some line, whatever the store is like and whatever it answers. -/
def Reply.Given (reply : Reply) : Prop :=
  ∃ (terms : Terms) (line : List Char), (terms.answerLine line).CanEnd reply

/-- What is answered to a request line while others are at work, on the terms of the desk. -/
theorem Floor.Run.given {ν : Type} [DecidableEq ν] {shop : Shop} {g : Floor ν Reply}
    {events : List (Event ν Reply)} (run : (Floor.ofShop shop).Run events g)
    (lines : ∀ v task, .comes v task ∈ events →
      ∃ (terms : Terms) (line : List Char), task = terms.answerLine line)
    {v : ν} {s : Session Reply} {reply : Reply} (present : g.sessions v = some s)
    (result : s.result? = some reply) : reply.Given := by
  refine run.canEnd (fun v s a absent => ?_) (fun v task reply hcomes hreply => ?_) present
    (Session.canEnd_of_result result)
  · cases absent
  · obtain ⟨terms, line, rfl⟩ := lines v task hcomes
    exact ⟨terms, line, hreply⟩

theorem Reply.given_listFailed : Reply.listFailed.Given :=
  ⟨⟨.standard, .memory⟩, Command.listFilms.toText.toList, true, rfl⟩

theorem Reply.given_error {line : List Char} {e : CommandError}
    (h : Command.parse line = .error e) : (Reply.error e.message).Given :=
  ⟨⟨.standard, .memory⟩, line, by rw [Terms.answerLine, h]; rfl⟩

/-- A house gives replies in this sense. -/
theorem House.given_answerLine (h : House) (line : List Char) : (h.answerLine line).2.Given := by
  obtain ⟨events, g, s, inner, run, present, hrun⟩ := h.shop.run_floor (h.terms.answerLine line)
  have hreply : (h.answerLine line).2 = s.result?.getD .listFailed := by
    rw [House.answerLine, hrun]
  rw [hreply]
  cases hresult : s.result? with
  | none => exact Reply.given_listFailed
  | some reply =>
      refine run.given (fun v task hcomes => ⟨h.terms, line, ?_⟩) present hresult
      rcases List.mem_cons.1 hcomes with heq | hmem
      · cases heq
        rfl
      · exact (inner _ hmem).elim

/-- A reply without a status of its own echoes why a line is no request. -/
theorem Reply.Given.error {message : String} (h : (Reply.error message).Given) :
    ∃ e : CommandError, message = e.message := by
  obtain ⟨terms, line, hends⟩ := h
  rw [Terms.answerLine] at hends
  split at hends
  · next command _ =>
      cases command <;> obtain ⟨result, hresult⟩ := Task.canEnd_bind hends <;>
        cases result <;> cases hresult
  · next e _ =>
      cases hends
      exact ⟨e, rfl⟩

/-! ## Where a reply ends -/

/-- Whether the line is the last one of its reply: the end of a list, a status, or an error that is
no list which failed. -/
def closesReply (line : String) : Bool :=
  [endOfList, "RENT_RESULT", "PAY_RESULT"].contains (firstField line) ||
    (firstField line == "ERROR" && line != recordLine ["ERROR", "STORAGE_ERROR"])

/-- A text that begins with another letter than the words of a list that failed. -/
theorem sanitize_append_ne {w : String} (h : w.toList.head?.any (· ∉ [';', '\n', '\r', 'S']))
    (rest : String) : sanitize (w ++ rest) ≠ "STORAGE_ERROR" := by
  intro heq
  have hfirst : (sanitize (w ++ rest)).toList.head? = some 'S' := by
    rw [heq]
    rfl
  cases hword : w.toList with
  | nil =>
      rw [hword] at h
      cases h
  | cons c cs =>
      have hc : c ≠ ';' ∧ c ≠ '\n' ∧ c ≠ '\r' ∧ c ≠ 'S' := by simpa [hword] using h
      simp [sanitize, hword, fieldSeparator, hc.1, hc.2.1, hc.2.2] at hfirst

/-- Why a line is no request is never said in the words of a list that failed. -/
theorem sanitize_message_ne (e : CommandError) : sanitize e.message ≠ "STORAGE_ERROR" := by
  cases e with
  | empty => decide
  | unknownVerb verb => exact sanitize_append_ne (w := "unknown command ") (by decide) verb
  | arity verb count =>
      change sanitize (verb.toText ++ " expects " ++ natText verb.arguments.length ++
        " argument(s), got " ++ natText count) ≠ _
      rw [String.append_assoc, String.append_assoc, String.append_assoc]
      cases verb <;> exact sanitize_append_ne (by decide) _
  | badId name text =>
      change sanitize (name.toText ++ " is not a valid id: " ++ text) ≠ _
      rw [String.append_assoc]
      cases name <;> exact sanitize_append_ne (by decide) _

/-- A list ends with its last line, if none of its records looks like an end. -/
theorem isPiece_list {α : Type} (rows : List α) {text : α → String} {word : String}
    (record : ∀ row, firstField (text row) = word)
    (h : [endOfList, "RENT_RESULT", "PAY_RESULT"].contains word = false) (known : word ≠ "ERROR") :
    IsPiece closesReply (rows.map text ++ [endOfList]) := by
  refine ⟨rows.map text, endOfList, rfl, fun line hline => ?_, by decide⟩
  obtain ⟨row, -, rfl⟩ := List.mem_map.1 hline
  rw [closesReply, record, h, beq_false_of_ne known]
  rfl

/-- Only the last line of a reply that is given looks like the last one. -/
theorem Reply.Given.isPiece {reply : Reply} (h : reply.Given) :
    IsPiece closesReply reply.lines := by
  have single : ∀ {line : String}, closesReply line = true → IsPiece closesReply [line] :=
    fun hline => ⟨[], _, rfl, by simp, hline⟩
  cases reply with
  | rent status baseFee =>
      refine single ?_
      rw [closesReply, firstField_recordLine (by decide)]
      rfl
  | pay status amount =>
      refine single ?_
      rw [closesReply, firstField_recordLine (by decide)]
      rfl
  | fees rows =>
      exact isPiece_list rows (fun _ => firstField_recordLine (by decide) ..) (by decide)
        (by decide)
  | rentals rows =>
      exact isPiece_list rows (fun _ => firstField_recordLine (by decide) ..) (by decide)
        (by decide)
  | invoices rows =>
      exact isPiece_list rows (fun _ => firstField_recordLine (by decide) ..) (by decide)
        (by decide)
  | films rows =>
      exact isPiece_list rows (fun _ => firstField_recordLine (by decide) ..) (by decide)
        (by decide)
  | listFailed => exact ⟨[recordLine ["ERROR", "STORAGE_ERROR"]], endOfList, rfl, by decide⟩
  | error message =>
      obtain ⟨e, rfl⟩ := h.error
      have hne : recordLine ["ERROR", sanitize e.message] ≠
          recordLine ["ERROR", "STORAGE_ERROR"] := by
        intro hline
        refine sanitize_message_ne e ?_
        have hlist := congrArg String.toList hline
        rw [toList_recordLine, toList_recordLine] at hlist
        rw [← String.toList_inj]
        simpa [joinFields] using hlist
      refine single ?_
      rw [closesReply, firstField_recordLine (by decide), bne_iff_ne.2 hne]
      rfl

/-- The replies of a text, each of them as its lines. -/
def readReplies (text : String) : List (List String) :=
  cutAfter closesReply ((cutAfter (· == '\n') text.toList).map fun line =>
    String.ofList line.dropLast)

theorem readReplies_written {replies : List Reply} (h : ∀ reply ∈ replies, reply.Given) :
    readReplies (written replies) = replies.map Reply.lines := by
  have hlines : cutAfter (· == '\n') (written replies).toList =
      (replies.flatMap Reply.lines).map fun line => line.toList ++ ['\n'] := by
    rw [written, String.toList_join, List.flatMap_def, List.map_map]
    refine (congrArg (fun lines : List (List Char) => cutAfter (· == '\n') lines.flatten)
      (List.map_congr_left fun line _ => String.toList_append)).trans (cutAfter_flatten ?_)
    intro piece hpiece
    obtain ⟨line, hline, rfl⟩ := List.mem_map.1 hpiece
    obtain ⟨reply, -, hreply⟩ := List.mem_flatMap.1 hline
    exact ⟨line.toList, '\n', rfl,
      fun c hc => beq_false_of_ne (Reply.oneLine_of_mem_lines hreply c hc).1, rfl⟩
  rw [readReplies, hlines, List.map_map]
  have htexts : ∀ line : String,
      ((fun cs : List Char => String.ofList cs.dropLast) ∘
        fun line : String => line.toList ++ ['\n']) line = line := by
    intro line
    rw [Function.comp_apply, List.dropLast_concat, String.ofList_toList]
  rw [List.map_congr_left fun line _ => htexts line, List.map_id', List.flatMap_def]
  refine cutAfter_flatten fun piece hpiece => ?_
  obtain ⟨reply, hreply, rfl⟩ := List.mem_map.1 hpiece
  exact (h reply hreply).isPiece

/-! ## The pairing -/

/-- Replies that are given in a row are known from their lines. -/
theorem lines_of_flatMap_lines {replies replies' : List Reply}
    (h : ∀ reply ∈ replies, reply.Given) (h' : ∀ reply ∈ replies', reply.Given)
    (eq : replies.flatMap Reply.lines = replies'.flatMap Reply.lines) :
    replies.map Reply.lines = replies'.map Reply.lines := by
  rw [← readReplies_written h, ← readReplies_written h', written, written, eq]

/-- Every stream consists of lines, in one way only. Those of them are the requests that are not
blank and stand before the first line that is not UTF-8. They are answered one after another, and
what is written are the lines of their replies. Without knowing the requests, a client reads the
replies back from that. -/
theorem requests_paired_with_replies :
    (∀ {σ : Type} (answer : σ → List Char → σ × Reply),
      (∀ state line, (answer state line).2.Given) →
      ∀ (state : σ) (stream : List UInt8), ∃ lines texts unread,
        Splits stream lines ∧ (∀ other, Splits stream other → other = lines) ∧
        lines = texts.map utf8 ++ unread ∧ Illegible unread ∧ ∃ state' replies,
          Answers answer state (nonBlank texts) state' replies ∧
          serve answer state stream = (state', ⟨written replies, faultOf unread⟩) ∧
          replies.length = (nonBlank texts).length ∧
          readReplies (written replies) = replies.map Reply.lines) ∧
    (∀ (h : House) (line : List Char), (h.answerLine line).2.Given) ∧
    (∀ reply : Reply, ∀ line ∈ reply.lines, OneLine line.toList) ∧
    ∀ replies replies' : List Reply, (∀ reply ∈ replies, reply.Given) →
      (∀ reply ∈ replies', reply.Given) →
      replies.flatMap Reply.lines = replies'.flatMap Reply.lines →
      replies.map Reply.lines = replies'.map Reply.lines := by
  refine ⟨fun answer given state stream => ?_, House.given_answerLine,
    fun _ _ => Reply.oneLine_of_mem_lines, fun _ _ => lines_of_flatMap_lines⟩
  obtain ⟨lines, splits⟩ := exists_splits stream
  obtain ⟨texts, unread, rfl, illegible⟩ := exists_texts lines
  have answers := answers_answerAll answer state (nonBlank texts)
  exact ⟨_, texts, unread, splits, fun _ other => other.unique splits, rfl, illegible, _, _,
    answers, serve_eq answer state splits illegible, answers.length_eq,
    readReplies_written (answers.forall_mem given)⟩

/-- Words that differ in their line ends are echoed alike. -/
theorem requests_paired_with_replies_echo :
    let replies := [Reply.error (CommandError.unknownVerb "A\nB").message, .listFailed]
    let replies' := [Reply.error (CommandError.unknownVerb "A\rB").message, .listFailed]
    ((∀ reply ∈ replies, reply.Given) ∧ ∀ reply ∈ replies', reply.Given) ∧
      replies.map Reply.lines = replies'.map Reply.lines := by
  have given : ∀ {line e}, Command.parse line = .error e →
      ∀ reply ∈ [Reply.error e.message, .listFailed], reply.Given := by
    intro line e h
    simp only [List.forall_mem_cons]
    exact ⟨Reply.given_error h, Reply.given_listFailed, by simp⟩
  have h := @given ['A', '\n', 'B'] (.unknownVerb "A\nB") rfl
  have h' := @given ['A', '\r', 'B'] (.unknownVerb "A\rB") rfl
  exact ⟨⟨h, h'⟩, requests_paired_with_replies.2.2.2 _ _ h h' (by decide)⟩

end RentalDesk
