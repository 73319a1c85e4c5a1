import StackControl.Configuration.Value

/-!
# Tables of a document

A document in TOML defines tables by headers, by dotted keys and by merely naming tables below
them.  Nothing may be defined twice: a header cannot reopen a table that a header or a dotted key
made, and a dotted key cannot extend a table that a header made or implied.
-/

namespace StackControl.Configuration.Toml

/-- How a table came to be. -/
inductive Origin
  /-- A header names a table below it. -/
  | implied
  /-- A dotted key leads through it. -/
  | dotted
  /-- It has a header of its own. -/
  | explicit
deriving DecidableEq, Repr

/-- What a key of a table stands for. -/
inductive Item
  /-- A value, which nothing can be added to. -/
  | value (v : Value)
  | table (origin : Origin) (entries : List (String × Item))
  /-- A list of tables, of which only the last one can be added to. -/
  | tables (last : List (String × Item))

/-- The content of a table. -/
abbrev Entries := List (String × Item)

namespace Entries

/-- Gives a key its item, in place of one that it had. -/
def put (key : String) (item : Item) (entries : Entries) : Entries :=
  (key, item) :: entries.filter (·.1 != key)

/-- Changes the table that a path of keys leads to.  Tables missing on the way are made with the
origin `made`; `enters` says which tables the path may lead through. -/
def alter
    (made : Origin) (enters : Origin → Bool) (change : Origin → Entries → Option Entries) :
    List String → Origin → Entries → Option Entries
  | [], origin, entries => change origin entries
  | key :: path, _, entries =>
    match entries.lookup key with
    | none => do
      let inner ← alter made enters change path made []
      return entries.put key (.table made inner)
    | some (.table origin inner) => do
      guard (enters origin)
      let inner ← alter made enters change path origin inner
      return entries.put key (.table origin inner)
    | some (.tables last) => do
      let last ← alter made enters change path .explicit last
      return entries.put key (.tables last)
    | some (.value _) => none

/-- Adds a value under a dotted key. -/
def insert (path : List String) (key : String) (v : Value) : Entries → Option Entries :=
  alter .dotted (· != .explicit)
    (fun origin entries => do
      guard (path.isEmpty || origin == .dotted)
      guard (entries.lookup key).isNone
      return entries.put key (.value v))
    path .explicit

/-- Changes the table that the path of a header leads to. -/
def below (path : List String) (change : Entries → Option Entries) : Entries → Option Entries :=
  alter .implied (fun _ => true) (fun _ entries => change entries) path .explicit

/-- Opens a table by its header. -/
def define (path : List String) (key : String) : Entries → Option Entries :=
  below path fun entries =>
    match entries.lookup key with
    | none => some (entries.put key (.table .explicit []))
    | some (.table .implied inner) => some (entries.put key (.table .explicit inner))
    | some _ => none

/-- Begins another table of a list of tables. -/
def append (path : List String) (key : String) : Entries → Option Entries :=
  below path fun entries =>
    match entries.lookup key with
    | none | some (.tables _) => some (entries.put key (.tables []))
    | some _ => none

/-- The fields of the outermost table; a table is no value that a field accepts. -/
def toLayer (entries : Entries) : Layer :=
  entries.map fun (key, item) =>
    match item with
    | .value v => (key, v)
    | .table _ _ | .tables _ => (key, .other)

end Entries

end StackControl.Configuration.Toml
