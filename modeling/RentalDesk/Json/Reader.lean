import RentalDesk.Json.Value
import RentalDesk.Text.Utf8

/-!
# Reading JSON

A recursive reader of the JSON grammar over lists of characters. Two steps of the recursion use up
a character at least, so twice the length of the text bounds its depth.
-/

namespace RentalDesk.Json

/-- The text without the blanks of JSON in front. -/
def skipBlanks (cs : List Char) : List Char :=
  cs.dropWhile fun c => c == ' ' || c == '\n' || c == '\t' || c == '\r'

/-- What follows the given word, if the text starts with it. -/
def readWord? : List Char → List Char → Option (List Char)
  | [], cs => some cs
  | w :: ws, c :: cs => if w = c then readWord? ws cs else none
  | _ :: _, [] => none

/-- The value of a hexadecimal digit. -/
def hexValue? (c : Char) : Option Nat :=
  if '0' ≤ c ∧ c ≤ '9' then some (c.toNat - '0'.toNat)
  else if 'a' ≤ c ∧ c ≤ 'f' then some (c.toNat - 'a'.toNat + 10)
  else if 'A' ≤ c ∧ c ≤ 'F' then some (c.toNat - 'A'.toNat + 10)
  else none

/-- The value of four hexadecimal digits, and what follows them. -/
def readUnit? : List Char → Option (Nat × List Char)
  | a :: b :: c :: d :: rest => do
    let a ← hexValue? a
    let b ← hexValue? b
    let c ← hexValue? c
    let d ← hexValue? d
    return (((a * 16 + b) * 16 + c) * 16 + d, rest)
  | _ => none

def escaped? : Char → Option Char
  | '"' => some '"'
  | '\\' => some '\\'
  | '/' => some '/'
  | 'b' => some '\x08'
  | 'f' => some '\x0c'
  | 'n' => some '\n'
  | 'r' => some '\r'
  | 't' => some '\t'
  | _ => none

/-- Whether the number is the first half of a surrogate pair. -/
def isHighSurrogate (n : Nat) : Bool := 0xD800 ≤ n && n < 0xDC00

/-- Whether the number is the second half of a surrogate pair. -/
def isLowSurrogate (n : Nat) : Bool := 0xDC00 ≤ n && n < 0xE000

/-- The characters of the rest of a string, up to its closing quote, and what follows it. The
characters are missing if half of a surrogate pair is among them. -/
def readCharacters? : Nat → List Char → Option (Option (List Char) × List Char)
  | 0, _ => none
  | _ + 1, [] => none
  | _ + 1, '"' :: cs => some (some [], cs)
  | steps + 1, '\\' :: 'u' :: cs => do
    let (unit, cs) ← readUnit? cs
    let pair? : Option (Nat × List Char) :=
      match cs with
      | '\\' :: 'u' :: more =>
        (readUnit? more).filter fun (low, _) => isHighSurrogate unit && isLowSurrogate low
      | _ => none
    match pair? with
    | some (low, cs) =>
      let (text, cs) ← readCharacters? steps cs
      let c := Char.ofNat (0x10000 + (unit - 0xD800) * 0x400 + (low - 0xDC00))
      return (text.map (c :: ·), cs)
    | none =>
      let (text, cs) ← readCharacters? steps cs
      if isHighSurrogate unit || isLowSurrogate unit then return (none, cs)
      else return (text.map (Char.ofNat unit :: ·), cs)
  | steps + 1, '\\' :: e :: cs => do
    let c ← escaped? e
    let (text, cs) ← readCharacters? steps cs
    return (text.map (c :: ·), cs)
  | steps + 1, c :: cs =>
    if c.toNat < 0x20 ∨ c = '\\' then none
    else do
      let (text, cs) ← readCharacters? steps cs
      return (text.map (c :: ·), cs)

/-- A string behind its opening quote. -/
def readString? (cs : List Char) : Option (Option String × List Char) :=
  (readCharacters? (cs.length + 1) cs).map fun (text, cs) => (text.map String.ofList, cs)

/-- The digits in front, and what follows them. -/
def spanDigits (cs : List Char) : List Char × List Char :=
  (cs.takeWhile Char.isDigit, cs.dropWhile Char.isDigit)

/-- The digits before the point: a zero alone, or digits of which the first is not zero. -/
def readWhole? (cs : List Char) : Option (List Char × List Char) :=
  match spanDigits cs with
  | ([], _) => none
  | ('0' :: _ :: _, _) => none
  | (digits, rest) => some (digits, rest)

/-- The digits behind the point, none if there is no point. -/
def readFraction? : List Char → Option (List Char × List Char)
  | '.' :: cs =>
    match spanDigits cs with
    | ([], _) => none
    | (digits, rest) => some (digits, rest)
  | cs => some ([], cs)

def readExponent? : List Char → Option (Option (Bool × List Char) × List Char)
  | c :: cs =>
    if c = 'e' ∨ c = 'E' then
      let (negative, cs) : Bool × List Char :=
        match cs with
        | '-' :: rest => (true, rest)
        | '+' :: rest => (false, rest)
        | _ => (false, cs)
      match spanDigits cs with
      | ([], _) => none
      | (digits, rest) => some (some (negative, digits), rest)
    else some (none, c :: cs)
  | [] => some (none, [])

def readNumber? (cs : List Char) : Option (JsonNumber × List Char) := do
  let (negative, cs) : Bool × List Char :=
    match cs with
    | '-' :: rest => (true, rest)
    | _ => (false, cs)
  let (whole, cs) ← readWhole? cs
  let (fraction, cs) ← readFraction? cs
  let (exponent, cs) ← readExponent? cs
  return (⟨negative, whole, fraction, exponent⟩, cs)

mutual

def readValue? : Nat → List Char → Option (Json × List Char)
  | 0, _ => none
  | steps + 1, cs =>
    match skipBlanks cs with
    | [] => none
    | '"' :: cs => (readString? cs).map fun (text, cs) => (.string text, cs)
    | '[' :: cs =>
      match skipBlanks cs with
      | ']' :: cs => some (.array [], cs)
      | cs => (readElements? steps cs).map fun (elements, cs) => (.array elements, cs)
    | '\x7b' :: cs =>
      match skipBlanks cs with
      | '\x7d' :: cs => some (.object [], cs)
      | cs => (readMembers? steps cs).map fun (members, cs) => (.object members, cs)
    | 'n' :: cs => (readWord? ['u', 'l', 'l'] cs).map fun cs => (.null, cs)
    | 't' :: cs => (readWord? ['r', 'u', 'e'] cs).map fun cs => (.bool true, cs)
    | 'f' :: cs => (readWord? ['a', 'l', 's', 'e'] cs).map fun cs => (.bool false, cs)
    | cs => (readNumber? cs).map fun (n, cs) => (.number n, cs)

/-- The elements of an array up to its closing bracket. -/
def readElements? : Nat → List Char → Option (List Json × List Char)
  | 0, _ => none
  | steps + 1, cs => do
    let (element, cs) ← readValue? steps cs
    match skipBlanks cs with
    | ',' :: cs =>
      let (elements, cs) ← readElements? steps cs
      return (element :: elements, cs)
    | ']' :: cs => return ([element], cs)
    | _ => none

/-- The members of an object up to its closing brace. -/
def readMembers? : Nat → List Char → Option (List (Option String × Json) × List Char)
  | 0, _ => none
  | steps + 1, cs =>
    match skipBlanks cs with
    | '"' :: cs => do
      let (name, cs) ← readString? cs
      match skipBlanks cs with
      | ':' :: cs =>
        let (value, cs) ← readValue? steps cs
        match skipBlanks cs with
        | ',' :: cs =>
          let (members, cs) ← readMembers? steps cs
          return ((name, value) :: members, cs)
        | '\x7d' :: cs => return ([(name, value)], cs)
        | _ => none
      | _ => none
    | _ => none

end

/-- Reads the whole text as one value with optional blanks around it. -/
def read? (cs : List Char) : Option Json :=
  (readValue? (2 * cs.length + 1) cs).bind fun (value, rest) =>
    if (skipBlanks rest).isEmpty then some value else none

/-- What a gap between characters is read as. In a string that is the escape of half a surrogate
pair, which denotes no text either. The question mark fits nowhere else, and it keeps a backslash
and the other half of a pair in front of the gap away from the escape. -/
def gap : List Char := ['?', '\\', 'u', 'd', 'c', '0', '0']

/-- The characters of stored bytes. They can have gaps, since a string that is ignored need not be
text. -/
def textOfBytes (bytes : List UInt8) : List Char :=
  match String.fromUTF8? ⟨bytes.toArray⟩ with
  | some text => text.toList
  | none => (Text.decode bytes).flatMap fun c => c.elim gap ([·])

/-- Reads stored bytes as one value with optional blanks around it. -/
def readBytes? (bytes : List UInt8) : Option Json := read? (textOfBytes bytes)

end RentalDesk.Json
