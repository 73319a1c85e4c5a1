import StackControl.Archive.Sparse

/-!
# Reading archives

A tar stream is a sequence of headers, each followed by its content in whole blocks.  A block of
NUL bytes, or the end of the stream, ends the archive.  Some entries are about the next one: they
give its long name, its long link target, or a `pax` record.
-/

namespace StackControl.Archive

/-- What is known of the next entry from the entries before it. -/
structure Notes where
  longName : Option Bytes
  longTarget : Option Bytes
  record : Option Bytes

namespace Notes

/-- Nothing is known. -/
def none : Notes := ⟨.none, .none, .none⟩

/-- Whether some entry announced another. -/
def announces (notes : Notes) : Bool :=
  notes.longName.isSome || notes.longTarget.isSome || notes.record.isSome

/-- A long name without the NUL that ends it. -/
def unterminated (bytes : Bytes) : Bytes :=
  if bytes.getLast? == some 0 then bytes.dropLast else bytes

/-- The path of the entry with a header. -/
def pathOf (notes : Notes) (h : Header) : Path :=
  match notes.longName with
  | some name => unterminated name
  | .none => ((notes.record.bind (recordValue? · "path"))).getD h.path

/-- The link target of the entry with a header. -/
def targetOf (notes : Notes) (h : Header) : Option Path :=
  match notes.longTarget with
  | some target => some (unterminated target)
  | .none => (notes.record.bind (recordValue? · "linkpath")).or h.target?

end Notes

/-- What stands next in a stream. -/
inductive Next
  | finished
  | damaged
  /-- A header, the length of its content, and the stream after the header. -/
  | member (header : Header) (size : Nat) (rest : Bytes)

/-- Reads a header; a `pax` record can override the length of the content. -/
def next (record : Option Bytes) (stream : Bytes) : Next :=
  if stream.isEmpty then .finished
  else
    let block := stream.take blockSize
    if block.length < blockSize then .damaged
    else if block.all (· == 0) then .finished
    else
      let h : Header := ⟨block⟩
      match h.checksumHolds, h.size? with
      | true, some stated =>
        let size := (record.bind recordSize?).getD stated
        if size + blockSize > Text.countUnsigned 64 then .damaged
        else .member h size (stream.drop blockSize)
      | _, _ => .damaged

/-- What an entry puts at its path.  Outside the ustar form a name that ends in a separator is a
directory. -/
def kindOf (h : Header) (path : Path) : Kind :=
  match h.kindChar with
  | '5' => .directory
  | '1' => .hardLink
  | '2' => .symbolicLink
  | 'g' | 'x' | 'L' | 'K' => .note
  | _ => if h.form ≠ .ustar && path.endsInSeparator then .directory else .file

/-- The entry with a header, given its content and whether that is complete. -/
def entryOf (notes : Notes) (h : Header) (content : Bytes) (complete : Bool) : Entry :=
  let path := notes.pathOf h
  { path := path
    kind := kindOf h path
    target := notes.targetOf h
    mode := h.mode?
    content := content
    complete := complete }

/-- Keeps the content of an entry about the next one; nothing can be said twice. -/
def noteOf (notes : Notes) (h : Header) (content : Bytes) : Option (Option Notes) :=
  if h.form = .old then none
  else
    match h.kindChar with
    | 'L' =>
      some (if notes.longName.isSome then none else some { notes with longName := some content })
    | 'K' =>
      some (if notes.longTarget.isSome then none
        else some { notes with longTarget := some content })
    | 'x' => some (if notes.record.isSome then none else some { notes with record := some content })
    | _ => none

/-- The content of an entry: the bytes, whether they are complete, and the number of further
header blocks; none if a sparse map is damaged. -/
def contentOf (h : Header) (size : Nat) (rest : Bytes) : Option (Bytes × Bool × Nat) :=
  if h.kindChar == 'S' then
    if h.form = .gnu then sparseContent? h size rest else none
  else
    let content := rest.take size
    some (content, content.length == size, 0)

/-- The stream after the content of an entry, which fills whole blocks; none if it breaks off. -/
def afterContent? (size blocks : Nat) (rest : Bytes) : Option Bytes :=
  let length := blocks * blockSize + roundUp size
  if rest.length < length then none else some (rest.drop length)

/-- Reads the entries of a stream, given what is known of the first one. -/
def readFrom : Nat → Notes → Bytes → Contents
  | 0, _, _ => ⟨[], true⟩
  | fuel + 1, notes, stream =>
    match next notes.record stream with
    | .finished => ⟨[], notes.announces⟩
    | .damaged => ⟨[], true⟩
    | .member h size rest =>
      match noteOf notes h (rest.take size) with
      | some none => ⟨[], true⟩
      | some (some notes) =>
        match afterContent? size 0 rest with
        | some stream => readFrom fuel notes stream
        | none => ⟨[], true⟩
      | none =>
        match contentOf h size rest with
        | none => ⟨[], true⟩
        | some (content, complete, blocks) =>
          let entry := entryOf notes h content complete
          match afterContent? size blocks rest with
          | some stream =>
            let others := readFrom fuel .none stream
            ⟨entry :: others.entries, others.damaged⟩
          | none => ⟨[entry], true⟩

/-- The entries of an archive. -/
def read (stream : Bytes) : Contents :=
  readFrom (stream.length + 1) .none stream

end StackControl.Archive
