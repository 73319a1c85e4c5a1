import StackControl.Archive.Header

/-!
# Sparse content

A sparse entry stores only the pieces of its content that hold data.  A map, in the header and in
blocks after it, gives the place and length of each piece; the gaps between them read as NUL bytes.
-/

namespace StackControl.Archive

/-- The place and length of a piece, as the map states them. -/
structure PieceField where
  offset : Bytes
  length : Bytes

/-- The piece fields in a part of a block. -/
def pieceFields (block : Bytes) (start count : Nat) : List PieceField :=
  (List.range count).map fun i =>
    let at' := block.drop (start + 24 * i)
    ⟨at'.take 12, (at'.drop 12).take 12⟩

/-- Whether a piece field is unused. -/
def PieceField.isUnused (p : PieceField) : Bool :=
  p.offset.head? == some 0 || p.length.head? == some 0

/-- The blocks after a header that continue the map, and what follows them. -/
def mapBlocks : Nat → Bytes → Option (List PieceField × Bytes)
  | 0, _ => none
  | fuel + 1, bytes =>
    if bytes.length < blockSize then none
    else
      let block := bytes.take blockSize
      let here := pieceFields block 0 21
      let rest := bytes.drop blockSize
      if (block.drop 504).head? == some 1 then
        (mapBlocks fuel rest).map fun (fields, rest) => (here ++ fields, rest)
      else some (here, rest)

/-- Content that is being put together from pieces. -/
structure Assembly where
  content : Bytes
  /-- Whether no piece broke off. -/
  complete : Bool
  /-- The length so far. -/
  position : Nat
  /-- The stored bytes that pieces still have to take. -/
  remaining : Nat
  /-- What is left of the stream. -/
  stream : Bytes

/-- Adds a piece.  Pieces come in order, and each but the last fills whole blocks. -/
def Assembly.add (size : Nat) (a : Assembly) (p : PieceField) : Option Assembly := do
  if p.isUnused then return a
  let offset ← octal? p.offset
  let length ← octal? p.length
  if length ≠ 0 ∧ (size - a.remaining) % blockSize ≠ 0 then none
  else if offset < a.position then none
  else if offset + length > Text.maxUnsigned 64 ∨ length > a.remaining then none
  else
    let gap := if a.complete then List.replicate (offset - a.position) 0 else []
    let piece := a.stream.take length
    return {
      content := a.content ++ gap ++ (if a.complete then piece else [])
      complete := a.complete && piece.length == length
      position := offset + length
      remaining := a.remaining - length
      stream := a.stream.drop length }

/-- The content of a sparse entry whose stored bytes number `size`, with the number of blocks
that continued its map: the content, and whether it is complete. -/
def sparseContent? (h : Header) (size : Nat) (bytes : Bytes) : Option (Bytes × Bool × Nat) := do
  let (more, stream) ←
    if h.field 482 1 == [1] then mapBlocks (bytes.length + 1) bytes else some ([], bytes)
  let fields := pieceFields h.block 386 4 ++ more
  let a ← fields.foldlM (Assembly.add size) ⟨[], true, 0, size, stream⟩
  let real ← octal? (h.field 483 12)
  if a.position = real ∧ a.remaining = 0 then
    return (a.content, a.complete, (bytes.length - stream.length) / blockSize)
  else none

end StackControl.Archive
