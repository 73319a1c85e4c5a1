/-!
# UTF-8

Programs and files speak bytes; settings and messages are text.  Decoding is strict where text
is required.  Where bytes are only shown it is lenient: every longest piece that could begin a
character but does not complete one becomes one replacement character.
-/

namespace StackControl

/-- A sequence of bytes. -/
abbrev Bytes := List UInt8

namespace Utf8

/-- The bytes of a list of characters. -/
def encodeChars (cs : List Char) : Bytes :=
  cs.flatMap String.utf8EncodeChar

/-- The bytes of a text. -/
def encode (s : String) : Bytes :=
  encodeChars s.toList

/-- A character whose first bytes have been read: their value so far, the number of bytes still
to come, and the range allowed for the next of them. -/
structure Partial where
  value : Nat
  remaining : Nat
  low : UInt8
  high : UInt8

/-- The bounds of an ordinary continuation byte. -/
def continuing (value remaining : Nat) : Partial :=
  ⟨value, remaining, 0x80, 0xBF⟩

/-- Reads the first byte of a character: a finished unit, or a character still to be completed.
A unit is a character, or `none` for bytes that are none. -/
def start (b : UInt8) : List (Option Char) × Option Partial :=
  let n := b.toNat
  if n < 0x80 then ([some (Char.ofNat n)], none)
  else if n < 0xC2 then ([none], none)
  else if n < 0xE0 then ([], some (continuing (n - 0xC0) 1))
  else if n = 0xE0 then ([], some ⟨0, 2, 0xA0, 0xBF⟩)
  else if n = 0xED then ([], some ⟨0xD, 2, 0x80, 0x9F⟩)
  else if n < 0xF0 then ([], some (continuing (n - 0xE0) 2))
  else if n = 0xF0 then ([], some ⟨0, 3, 0x90, 0xBF⟩)
  else if n < 0xF4 then ([], some (continuing (n - 0xF0) 3))
  else if n = 0xF4 then ([], some ⟨4, 3, 0x80, 0x8F⟩)
  else ([none], none)

/-- Reads one more byte. -/
def step : Option Partial → UInt8 → List (Option Char) × Option Partial
  | none, b => start b
  | some p, b =>
    if p.low ≤ b && b ≤ p.high then
      let value := p.value * 64 + (b.toNat - 0x80)
      if p.remaining ≤ 1 then ([some (Char.ofNat value)], none)
      else ([], some (continuing value (p.remaining - 1)))
    else
      let (units, state) := start b
      (none :: units, state)

/-- The units of a byte sequence, given the character that is being read. -/
def unitsFrom : Option Partial → Bytes → List (Option Char)
  | none, [] => []
  | some _, [] => [none]
  | state, b :: rest =>
    let (units, next) := step state b
    units ++ unitsFrom next rest

/-- The characters of a byte sequence, with `none` for each piece that is no character. -/
def units (bytes : Bytes) : List (Option Char) :=
  unitsFrom none bytes

/-- The text of a byte sequence, if every byte belongs to a character. -/
def decode? (bytes : Bytes) : Option String :=
  ((units bytes).mapM id).map String.ofList

/-- The text of a byte sequence, with U+FFFD for each piece that is no character. -/
def decodeLossy (bytes : Bytes) : String :=
  String.ofList ((units bytes).map (·.getD '\uFFFD'))

end Utf8

/-- The byte of an ASCII character. -/
def byteOf (c : Char) : UInt8 :=
  UInt8.ofNat c.toNat

end StackControl
