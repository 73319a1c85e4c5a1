import StackControl.Text.Number
import StackControl.Text.Reader

/-!
# Quoted text

Text between double quotes, in which a backslash begins an escape: a control character by its
letter, a quote, a backslash, or any character by its number in hexadecimal.  Control characters
other than the tab cannot stand for themselves.
-/

namespace StackControl.Text

open Reader

/-- Whether a character can stand for itself inside quotes. -/
def isPrintable (c : Char) : Bool :=
  c == '\t' || (' ' ≤ c && c != '\x7F')

/-- The character with a number, unless the number is that of a surrogate or too large. -/
def scalar? (n : Nat) : Option Char :=
  if n < 0xD800 || (0xDFFF < n && n < 0x110000) then some (Char.ofNat n) else none

/-- Reads the number of a character, in that many hexadecimal digits. -/
def scalar (width : Nat) : Reader Char := do
  let digits ← times width (satisfying fun c => (digit? 16 c).isSome)
  match (digits? 16 digits).bind scalar? with
  | some c => return c
  | none => failure

/-- Reads an escape after its backslash. -/
def escape : Reader Char := do
  match ← next with
  | 'b' => return '\x08'
  | 'f' => return '\x0C'
  | 'n' => return '\n'
  | 'r' => return '\r'
  | 't' => return '\t'
  | '"' => return '"'
  | '\\' => return '\\'
  | 'u' => scalar 4
  | 'U' => scalar 8
  | _ => failure

/-- Reads a character between double quotes. -/
def quotedCharacter : Reader Char :=
  satisfying (fun c => isPrintable c && c != '"' && c != '\\') <|> do
    character '\\'
    escape

/-- Reads a text in double quotes. -/
def quoted : Reader String := do
  character '"'
  let cs ← many quotedCharacter
  character '"'
  return String.ofList cs

end StackControl.Text
