import RentalDesk.Proofs.Text.Blank
import RentalDesk.Serving

/-!
# Streams and their lines

A stream is cut into pieces behind each element that closes one. Bytes are cut into lines behind
line feeds, and in the same way whoever gets the replies can cut their text into lines, and the
lines into replies.

`Splits` says what the lines of a stream are, without a look at how they are found. `serve_eq` says
what is done with them: they are texts up to one that is not UTF-8, and those of them that are not
blank are the requests.
-/

namespace RentalDesk

open Text

/-! ## Pieces -/

section Pieces

variable {α : Type} {closes : α → Bool}

/-- The list, cut behind each element that closes a piece. -/
def cutAfter (closes : α → Bool) : List α → List (List α)
  | [] => []
  | a :: as =>
    if closes a then [a] :: cutAfter closes as
    else
      match cutAfter closes as with
      | [] => [[a]]
      | piece :: pieces => (a :: piece) :: pieces

/-- The last element closes the piece, and no element before it does. -/
def IsPiece (closes : α → Bool) (piece : List α) : Prop :=
  ∃ inner last, piece = inner ++ [last] ∧ (∀ a ∈ inner, closes a = false) ∧ closes last = true

theorem cutAfter_append {piece : List α} (h : IsPiece closes piece) (rest : List α) :
    cutAfter closes (piece ++ rest) = piece :: cutAfter closes rest := by
  obtain ⟨inner, last, rfl, hinner, hlast⟩ := h
  induction inner with
  | nil => simp [cutAfter, hlast]
  | cons a inner ih =>
      rw [List.forall_mem_cons] at hinner
      rw [List.cons_append, List.cons_append, cutAfter, ih hinner.2, hinner.1]
      rfl

/-- Pieces in a row can be told apart. -/
theorem cutAfter_flatten {pieces : List (List α)} (h : ∀ piece ∈ pieces, IsPiece closes piece) :
    cutAfter closes pieces.flatten = pieces := by
  induction pieces with
  | nil => rfl
  | cons piece pieces ih =>
      rw [List.forall_mem_cons] at h
      rw [List.flatten_cons, cutAfter_append h.1, ih h.2]

end Pieces

/-! ## Lines of bytes -/

/-- The line, as it is written in front of a line feed. A carriage return at the end of what is
written belongs to the end of the line, so a line without one does not end in a carriage return. -/
inductive WrittenAs : List UInt8 → List UInt8 → Prop
  | returned (line : List UInt8) : WrittenAs line (line ++ [carriageReturn])
  | bare {line : List UInt8} (h : ∀ inner, line ≠ inner ++ [carriageReturn]) : WrittenAs line line

/-- The stream consists of the lines. Each of them is ended by a line feed, but for the last one,
which may lack its end. -/
inductive Splits : List UInt8 → List (List UInt8) → Prop
  | nothing : Splits [] []
  | last {line : List UInt8} (nonempty : line ≠ []) (one : lineFeed ∉ line) : Splits line [line]
  | ended {line written stream : List UInt8} {lines : List (List UInt8)}
      (ends : WrittenAs line written) (one : lineFeed ∉ written) (rest : Splits stream lines) :
      Splits (written ++ lineFeed :: stream) (line :: lines)

theorem WrittenAs.dropReturn_eq {line written : List UInt8} (h : WrittenAs line written) :
    dropReturn written = line := by
  cases h with
  | returned => rw [dropReturn, if_pos List.getLast?_concat, List.dropLast_concat]
  | bare h =>
      refine if_neg fun last => ?_
      obtain ⟨inner, rfl⟩ := List.getLast?_eq_some_iff.1 last
      exact h inner rfl

theorem exists_writtenAs (written : List UInt8) : ∃ line, WrittenAs line written := by
  by_cases h : ∃ line, written = line ++ [carriageReturn]
  · obtain ⟨line, rfl⟩ := h
    exact ⟨line, .returned line⟩
  · exact ⟨written, .bare fun inner same => h ⟨inner, same⟩⟩

theorem splitLinesFrom_of_not_mem {bytes : List UInt8} (h : lineFeed ∉ bytes)
    (begun : List UInt8) :
    splitLinesFrom begun bytes =
      if begun.reverse ++ bytes = [] then [] else [begun.reverse ++ bytes] := by
  induction bytes generalizing begun with
  | nil => simp [splitLinesFrom]
  | cons byte bytes ih =>
      rw [List.mem_cons, not_or] at h
      rw [splitLinesFrom, if_neg (Ne.symm h.1), ih h.2]
      simp

theorem splitLinesFrom_append {line : List UInt8} (h : lineFeed ∉ line) (begun rest : List UInt8) :
    splitLinesFrom begun (line ++ lineFeed :: rest) =
      dropReturn (begun.reverse ++ line) :: splitLinesFrom [] rest := by
  induction line generalizing begun with
  | nil => simp [splitLinesFrom]
  | cons byte line ih =>
      rw [List.mem_cons, not_or] at h
      rw [List.cons_append, splitLinesFrom, if_neg (Ne.symm h.1), ih h.2]
      simp

namespace Splits

variable {stream : List UInt8} {lines lines' : List (List UInt8)}

theorem splitLines_eq (h : Splits stream lines) : splitLines stream = lines := by
  induction h with
  | nothing => rfl
  | last nonempty one => exact (splitLinesFrom_of_not_mem one []).trans (if_neg nonempty)
  | ended ends one _ ih =>
      rw [splitLines, splitLinesFrom_append one, List.reverse_nil, List.nil_append,
        ends.dropReturn_eq]
      exact congrArg _ ih

/-- One carriage return is dropped in front of a line feed, and none elsewhere. -/
example : splitLines [65, 13, 13, 10, 13, 10, 66, 13] = [[65, 13], [], [66, 13]] := by decide

/-- A stream consists of lines in one way only. -/
theorem unique (h : Splits stream lines) (h' : Splits stream lines') : lines = lines' :=
  h.splitLines_eq.symm.trans h'.splitLines_eq

end Splits

/-- Every stream consists of lines. -/
theorem exists_splits (stream : List UInt8) : ∃ lines, Splits stream lines := by
  induction hlength : stream.length using Nat.strongRecOn generalizing stream with
  | _ n ih =>
      by_cases hfeed : lineFeed ∈ stream
      · obtain ⟨written, rest, rfl, one⟩ := List.eq_append_cons_of_mem hfeed
        have shorter : rest.length < n := by
          rw [← hlength, List.length_append, List.length_cons]
          omega
        obtain ⟨lines, splits⟩ := ih _ shorter rest rfl
        obtain ⟨line, ends⟩ := exists_writtenAs written
        exact ⟨line :: lines, .ended ends one splits⟩
      · by_cases nonempty : stream = []
        · exact ⟨[], nonempty ▸ .nothing⟩
        · exact ⟨[stream], .last nonempty hfeed⟩

/-! ## Texts -/

/-- The bytes of a text. -/
def utf8 (text : List Char) : List UInt8 := (String.ofList text).toByteArray.data.toList

theorem lineText?_eq_some_iff {line : List UInt8} {text : List Char} :
    lineText? line = some text ↔ line = utf8 text := by
  have hbytes : line = utf8 text ↔ (String.ofList text).toByteArray = ⟨line.toArray⟩ := by
    rw [utf8]
    constructor
    · rintro rfl
      rw [Array.toArray_toList]
    · intro h
      rw [h]
  rw [hbytes, lineText?, Option.map_eq_some_iff, String.fromUTF8?]
  constructor
  · rintro ⟨s, hs, rfl⟩
    split at hs
    · obtain rfl := Option.some.inj hs
      rw [String.ofList_toList]
      rfl
    · cases hs
  · intro h
    have hvalid : (⟨line.toArray⟩ : ByteArray).IsValidUTF8 := h ▸ (String.ofList text).isValidUTF8
    refine ⟨.fromUTF8 _ hvalid, dif_pos hvalid, ?_⟩
    rw [← String.toList_ofList (l := text)]
    exact congrArg String.toList (String.toByteArray_inj.1 h.symm)

@[simp] theorem lineText?_utf8 (text : List Char) : lineText? (utf8 text) = some text :=
  lineText?_eq_some_iff.2 rfl

/-- Nothing is left of a text without its blanks if it consists of white space. -/
theorem trim_isEmpty (text : List Char) :
    (trim text).isEmpty = text.all (·.toNat ∈ whiteSpace) := by
  rw [Bool.eq_iff_iff, List.isEmpty_iff, List.all_eq_true, trim_eq_nil_iff, Blanks]
  simp only [isBlank_iff, decide_eq_true_eq]

/-! ## Requests -/

/-- The first of the lines, if there is any, is not UTF-8. -/
def Illegible (lines : List (List UInt8)) : Prop := ∀ line ∈ lines.head?, ∀ text, line ≠ utf8 text

/-- Lines are texts as far as they can be read. -/
theorem exists_texts (lines : List (List UInt8)) :
    ∃ (texts : List (List Char)) (unread : List (List UInt8)),
      lines = texts.map utf8 ++ unread ∧ Illegible unread := by
  induction lines with
  | nil => exact ⟨[], [], rfl, by simp [Illegible]⟩
  | cons line lines ih =>
      by_cases hline : ∃ text, line = utf8 text
      · obtain ⟨text, rfl⟩ := hline
        obtain ⟨texts, unread, rfl, hunread⟩ := ih
        exact ⟨text :: texts, unread, rfl, hunread⟩
      · refine ⟨[], line :: lines, rfl, ?_⟩
        rintro _ ⟨⟩ text rfl
        exact hline ⟨text, rfl⟩

/-- The texts that do not consist of white space. -/
def nonBlank (texts : List (List Char)) : List (List Char) :=
  texts.filter fun text => !text.all (·.toNat ∈ whiteSpace)

/-- The fault that reading ends with before lines that are not looked at. -/
def faultOf (unread : List (List UInt8)) : Option StreamCause :=
  if unread = [] then none else some .invalidText

theorem requestsOfLines_eq (texts : List (List Char)) {unread : List (List UInt8)}
    (h : Illegible unread) :
    requestsOfLines (texts.map utf8 ++ unread) = (nonBlank texts, faultOf unread) := by
  induction texts with
  | nil =>
      cases unread with
      | nil => rfl
      | cons line lines =>
          have hnone : lineText? line = none := by
            rw [Option.eq_none_iff_forall_ne_some]
            exact fun text htext => h line rfl text (lineText?_eq_some_iff.1 htext)
          rw [List.map_nil, List.nil_append, requestsOfLines, hnone]
          rfl
  | cons text texts ih =>
      rw [List.map_cons, List.cons_append, requestsOfLines, lineText?_utf8, ih]
      simp only [trim_isEmpty, nonBlank, List.filter_cons]
      cases text.all (·.toNat ∈ whiteSpace) <;> rfl

/-! ## Serving -/

/-- The text that the replies are written as: each of their lines with a line feed behind it. -/
def written (replies : List Reply) : String :=
  String.join ((replies.flatMap Reply.lines).map (· ++ "\n"))

theorem join_texts (replies : List Reply) :
    String.join (replies.map Reply.text) = written replies := by
  rw [written, ← String.toList_inj]
  induction replies with
  | nil => rfl
  | cons reply replies ih =>
      rw [List.map_cons, List.flatMap_cons, List.map_append, String.join_cons, String.toList_append,
        ih, Reply.text]
      simp

/-- The requests are answered one after another, each in the state that those before it have
left. -/
inductive Answers {σ : Type} (answer : σ → List Char → σ × Reply) :
    σ → List (List Char) → σ → List Reply → Prop
  | nil {state : σ} : Answers answer state [] state []
  | cons {state next last : σ} {request : List Char} {requests : List (List Char)} {reply : Reply}
      {replies : List Reply} (first : answer state request = (next, reply))
      (others : Answers answer next requests last replies) :
      Answers answer state (request :: requests) last (reply :: replies)

section

variable {σ : Type} {answer : σ → List Char → σ × Reply} {state last : σ}
  {requests : List (List Char)} {replies : List Reply}

theorem answers_answerAll (answer : σ → List Char → σ × Reply) (state : σ)
    (requests : List (List Char)) :
    Answers answer state requests (answerAll answer state requests).1
      (answerAll answer state requests).2 := by
  induction requests generalizing state with
  | nil => exact .nil
  | cons request requests ih => exact .cons rfl (ih _)

namespace Answers

theorem forall_mem {P : Reply → Prop} (h : Answers answer state requests last replies)
    (all : ∀ state line, P (answer state line).2) : ∀ reply ∈ replies, P reply := by
  induction h with
  | nil => exact List.forall_mem_nil _
  | @cons state _ _ request _ _ _ first _ ih =>
      have one := all state request
      rw [first] at one
      exact List.forall_mem_cons.2 ⟨one, ih⟩

/-- There is one reply to each request. -/
theorem length_eq (h : Answers answer state requests last replies) :
    replies.length = requests.length := by
  induction h with
  | nil => rfl
  | cons _ _ ih => exact congrArg (· + 1) ih

end Answers

/-- The texts of a stream that are not blank are answered one after another. What is written are
the lines of the replies, and there is a fault if and only if a line is not UTF-8. -/
theorem serve_eq (answer : σ → List Char → σ × Reply) (state : σ) {stream : List UInt8}
    {texts : List (List Char)} {unread : List (List UInt8)}
    (splits : Splits stream (texts.map utf8 ++ unread)) (illegible : Illegible unread) :
    serve answer state stream = ((answerAll answer state (nonBlank texts)).1,
      ⟨written (answerAll answer state (nonBlank texts)).2, faultOf unread⟩) := by
  rw [serve, RentalDesk.requests, splits.splitLines_eq, requestsOfLines_eq texts illegible]
  simp only [join_texts]

end

end RentalDesk
