import StackControl.Archive.Basic
import StackControl.Text.Blank
import StackControl.Text.Number

/-!
# Archive headers

A tar header is a block of 512 bytes with fields at fixed places.  Numbers are octal text, and a
size may instead be binary.  Two magic words tell the later forms of the header, `ustar` and GNU,
from the old one.  A `pax` record about the next entry is a list of lines, each with its own
length, a key and a value.
-/

namespace StackControl.Archive

/-- The length of a block. -/
def blockSize : Nat := 512

/-- A length rounded up to whole blocks. -/
def roundUp (size : Nat) : Nat :=
  (size + (blockSize - 1)) / blockSize * blockSize

/-- The form of a header. -/
inductive Form
  | old
  | ustar
  | gnu
deriving DecidableEq, Repr

/-- The bytes before the first NUL. -/
def untilNul (bytes : Bytes) : Bytes :=
  bytes.takeWhile (· != 0)

/-- A number in octal text. -/
def octal? (field : Bytes) : Option Nat := do
  let text ← Utf8.decode? (untilNul field)
  Text.natural? 8 (Text.maxUnsigned 64) (Text.trim text.toList)

/-- The number that bytes spell in base 256. -/
def bigEndian (bytes : Bytes) : Nat :=
  bytes.foldl (fun n b => n * 256 + b.toNat) 0

/-- A number in octal text, or in binary when the first bit is set. -/
def number? (field : Bytes) : Option Nat :=
  match field.head? with
  | some first =>
    if first ≥ 0x80 then some (bigEndian (field.drop (field.length - 8))) else octal? field
  | none => none

/-- A header block. -/
structure Header where
  block : Bytes

namespace Header

variable (h : Header)

/-- A field by its place and length. -/
def field (offset length : Nat) : Bytes :=
  (h.block.drop offset).take length

/-- The character of the entry's kind. -/
def kindChar : Char :=
  match h.field 156 1 with
  | [b] => Char.ofNat b.toNat
  | _ => '\x00'

/-- The form of the header. -/
def form : Form :=
  let magic := h.field 257 8
  if magic == Utf8.encode "ustar" ++ [0] ++ Utf8.encode "00" then .ustar
  else if magic == Utf8.encode "ustar  " ++ [0] then .gnu
  else .old

/-- The place and length of the checksum. -/
def checksumField : Nat × Nat := (148, 8)

/-- Whether the checksum is the sum of all bytes, with blanks in its own place. -/
def checksumHolds : Bool :=
  let (offset, length) := checksumField
  let sum := (h.block.take offset ++ h.block.drop (offset + length)).foldl
    (fun n b => n + b.toNat) (length * 0x20)
  octal? (h.field offset length) == some sum

/-- The length of the content, as the header states it. -/
def size? : Option Nat := number? (h.field 124 12)

/-- The permissions. -/
def mode? : Option Nat := (octal? (h.field 100 8)).map (· % Text.countUnsigned 32)

/-- The path: a name, which in the ustar form has a directory before it. -/
def path : Path :=
  let name := untilNul (h.field 0 100)
  let front := untilNul (h.field 345 155)
  if h.form = .ustar && !front.isEmpty then front ++ Path.separator :: name else name

/-- Where a link leads, if that is filled in. -/
def target? : Option Path :=
  let target := untilNul (h.field 157 100)
  if target.isEmpty then none else some target

end Header

/-- A line of a `pax` record, without its end: the length that it states has to be its own. -/
def recordLine? (line : Bytes) : Option (Bytes × Bytes) := do
  let (length, rest) ← Text.cutAt? (· == byteOf ' ') line
  let text ← Utf8.decode? length
  let stated ← Text.natural? 10 (Text.maxUnsigned 64) text.toList
  if stated = line.length + 1 then Text.cutAt? (· == byteOf '=') rest else none

/-- The lines of a `pax` record up to the first empty one; `none` stands for a damaged line. -/
def recordLines (record : Bytes) : List (Option (Bytes × Bytes)) :=
  ((Text.splitAt (· == byteOf '\n') record).takeWhile (!·.isEmpty)).map recordLine?

/-- The value of a key, with damaged lines passed over. -/
def recordValue? (record : Bytes) (key : String) : Option Bytes :=
  ((recordLines record).filterMap id).lookup (Utf8.encode key)

/-- The size that a `pax` record states; a damaged line before it makes it count for nothing. -/
def recordSize? (record : Bytes) : Option Nat := do
  let sound := (recordLines record).takeWhile (·.isSome)
  let value ← (sound.filterMap id).lookup (Utf8.encode "size")
  let text ← Utf8.decode? value
  Text.natural? 10 (Text.maxUnsigned 64) text.toList

end StackControl.Archive
