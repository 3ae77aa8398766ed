import RentalDesk.Error
import RentalDesk.Reply
import RentalDesk.Text.Blank

/-!
# Serving lines

Requests come as a stream of bytes, one to a line. A line ends with a line feed, and a carriage
return before it belongs to the end; the last line may lack its end. Blank lines are passed over.
Every other line is answered before the next one is looked at, and each line of its reply ends with
a line feed. A line that is not UTF-8 ends the service with a fault; what was answered before it
stays answered, and no later line is looked at.
-/

namespace RentalDesk

open Text

abbrev lineFeed : UInt8 := 10

abbrev carriageReturn : UInt8 := 13

/-- A line without the carriage return at its end. -/
def dropReturn (line : List UInt8) : List UInt8 :=
  if line.getLast? = some carriageReturn then line.dropLast else line

/-- The lines of a stream without their ends, given the bytes of the line that has begun. -/
def splitLinesFrom (begun : List UInt8) : List UInt8 → List (List UInt8)
  | [] => if begun.isEmpty then [] else [begun.reverse]
  | byte :: bytes =>
    if byte = lineFeed then dropReturn begun.reverse :: splitLinesFrom [] bytes
    else splitLinesFrom (byte :: begun) bytes

/-- The lines of a stream without their ends. -/
def splitLines (stream : List UInt8) : List (List UInt8) := splitLinesFrom [] stream

/-- The bytes up to the last line feed, and the line that has begun behind it. -/
def completeLines (bytes : List UInt8) : List UInt8 × List UInt8 :=
  let begun := (bytes.reverse.takeWhile (· ≠ lineFeed)).reverse
  (bytes.take (bytes.length - begun.length), begun)

/-- The characters of a line, if it is UTF-8. -/
def lineText? (line : List UInt8) : Option (List Char) :=
  (String.fromUTF8? ⟨line.toArray⟩).map String.toList

/-- The requests of a stream up to the first line that is not UTF-8, and the fault that this line
is, if there is one. -/
def requestsOfLines : List (List UInt8) → List (List Char) × Option StreamCause
  | [] => ([], none)
  | line :: lines =>
    match lineText? line with
    | none => ([], some .invalidText)
    | some text =>
      let (requests, fault) := requestsOfLines lines
      if (trim text).isEmpty then (requests, fault) else (text :: requests, fault)

/-- The requests of a stream, and the fault that it ends with. -/
def requests (stream : List UInt8) : List (List Char) × Option StreamCause :=
  requestsOfLines (splitLines stream)

def answerAll {σ : Type} (answer : σ → List Char → σ × Reply) :
    σ → List (List Char) → σ × List Reply
  | state, [] => (state, [])
  | state, request :: requests =>
    let (state, reply) := answer state request
    let (state, replies) := answerAll answer state requests
    (state, reply :: replies)

def Reply.text (reply : Reply) : String := String.join (reply.lines.map (· ++ "\n"))

/-- What was written to a client, and the fault that the service ended with. -/
structure Served where
  output : String
  fault : Option StreamCause
deriving DecidableEq

/-- Serves a stream to a client that reads all replies. -/
def serve {σ : Type} (answer : σ → List Char → σ × Reply) (state : σ) (stream : List UInt8) :
    σ × Served :=
  let (requests, fault) := requests stream
  let (state, replies) := answerAll answer state requests
  (state, ⟨String.join (replies.map Reply.text), fault⟩)

/-- Serves a stream to a client that is gone. The first reply cannot be written, so nothing behind
its request is looked at. -/
def serveClosed {σ : Type} (answer : σ → List Char → σ × Reply) (state : σ)
    (stream : List UInt8) : σ × Served :=
  match requests stream with
  | ([], fault) => (state, ⟨"", fault⟩)
  | (request :: _, _) => ((answer state request).1, ⟨"", some .closed⟩)

end RentalDesk
