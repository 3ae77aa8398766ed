/-!
# UTF-8

The characters that bytes encode, with a gap where they encode none. A gap covers the bytes of a
character that breaks off, as far as they could have been continued, or a single byte with which no
character begins.
-/

namespace RentalDesk.Text

/-- A character of which some bytes are read: the value of their bits, how many bytes are lacking,
and the least and the greatest byte that can come next. The bounds leave out longer forms of
shorter characters, surrogates, and values beyond the last character. -/
structure BrokenChar where
  value : Nat
  lacking : Nat
  least : Nat
  greatest : Nat
deriving DecidableEq, Repr

namespace BrokenChar

/-- What a byte begins, if it is the first one of several. -/
def ofFirst? (byte : Nat) : Option BrokenChar :=
  if 0xC2 ≤ byte ∧ byte ≤ 0xDF then some ⟨byte - 0xC0, 1, 0x80, 0xBF⟩
  else if byte = 0xE0 then some ⟨0, 2, 0xA0, 0xBF⟩
  else if byte = 0xED then some ⟨0xD, 2, 0x80, 0x9F⟩
  else if 0xE1 ≤ byte ∧ byte ≤ 0xEF then some ⟨byte - 0xE0, 2, 0x80, 0xBF⟩
  else if byte = 0xF0 then some ⟨0, 3, 0x90, 0xBF⟩
  else if byte = 0xF4 then some ⟨4, 3, 0x80, 0x8F⟩
  else if 0xF1 ≤ byte ∧ byte ≤ 0xF3 then some ⟨byte - 0xF0, 3, 0x80, 0xBF⟩
  else none

end BrokenChar

/-- What the first byte of a character adds to the text, and the character that it begins. -/
def decodeFirst (byte : Nat) : List (Option Char) × Option BrokenChar :=
  if byte < 0x80 then ([some (Char.ofNat byte)], none)
  else
    match BrokenChar.ofFirst? byte with
    | some broken => ([], some broken)
    | none => ([none], none)

/-- What a byte adds to the text behind the given beginning of a character. -/
def decodeByte : Option BrokenChar → Nat → List (Option Char) × Option BrokenChar
  | none, byte => decodeFirst byte
  | some broken, byte =>
    if broken.least ≤ byte ∧ byte ≤ broken.greatest then
      let value := 64 * broken.value + (byte - 0x80)
      if broken.lacking = 1 then ([some (Char.ofNat value)], none)
      else ([], some ⟨value, broken.lacking - 1, 0x80, 0xBF⟩)
    else
      let (text, next) := decodeFirst byte
      (none :: text, next)

/-- The characters and gaps of bytes behind the given beginning of a character. -/
def decodeFrom : Option BrokenChar → List UInt8 → List (Option Char)
  | broken, [] => broken.toList.map fun _ => none
  | broken, byte :: bytes =>
    let (text, next) := decodeByte broken byte.toNat
    text ++ decodeFrom next bytes

/-- The characters and gaps of bytes. -/
def decode (bytes : List UInt8) : List (Option Char) := decodeFrom none bytes

/-- The text of bytes in which every gap shows as a replacement character. -/
def lossyText (bytes : List UInt8) : String :=
  String.ofList ((decode bytes).map fun c => c.getD '\ufffd')

end RentalDesk.Text
