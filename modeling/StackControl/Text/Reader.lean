/-!
# Readers

A reader takes characters from the front of a text and answers a value and what is left, or it
refuses the text.  Readers are put together in the order in which they read; of two alternatives
the second one starts over where the first one did.
-/

namespace StackControl.Text

/-- Takes characters from the front of a text, or refuses it. -/
abbrev Reader := StateT (List Char) Option

namespace Reader

/-- Reads one character. -/
def next : Reader Char
  | [] => none
  | c :: rest => some (c, rest)

/-- The first character of what is left, which stays there. -/
def ahead : Reader (Option Char) :=
  fun cs => some (cs.head?, cs)

/-- Reads one character that satisfies `p`. -/
def satisfying (p : Char → Bool) : Reader Char := do
  let c ← next
  if p c then return c else failure

/-- Reads exactly this character. -/
def character (c : Char) : Reader Unit := do
  let _ ← satisfying (· == c)

/-- Reads exactly this word. -/
def word (w : String) : Reader Unit :=
  fun cs => (w.toList.isPrefixOf? cs).map fun rest => ((), rest)

/-- Reads the longest run of characters that satisfy `p`. -/
def run (p : Char → Bool) : Reader (List Char) :=
  fun cs => some (cs.takeWhile p, cs.dropWhile p)

/-- Reads the longest run of characters that satisfy `p`, of which there must be one. -/
def someRun (p : Char → Bool) : Reader (List Char) := do
  let cs ← run p
  if cs.isEmpty then failure else return cs

/-- Reads what `r` reads, if it can. -/
def maybe {α : Type} (r : Reader α) : Reader (Option α) :=
  (some <$> r) <|> pure none

/-- Reads what `r` reads and says whether it could. -/
def accepts {α : Type} (r : Reader α) : Reader Bool := do
  return (← maybe r).isSome

/-- Reads with `r` as often as it can, at most the given number of times. -/
def upTo {α : Type} (r : Reader α) : Nat → Reader (List α)
  | 0 => pure []
  | n + 1 => do
    match ← maybe r with
    | some a => return a :: (← upTo r n)
    | none => return []

/-- Reads with `r` as often as it can; `r` takes at least one character each time. -/
def many {α : Type} (r : Reader α) : Reader (List α) := do
  upTo r (← get).length

/-- Reads exactly `n` times with `r`. -/
def times {α : Type} (n : Nat) (r : Reader α) : Reader (List α) :=
  (List.replicate n r).mapM id

/-- Reads items with commas between them.  `trailing` says whether a comma may follow the last. -/
def separated {α : Type} (trailing : Bool) (item : Reader α) : Reader (List α) := do
  match ← maybe item with
  | none => return []
  | some first =>
    let others ← many do
      character ','
      item
    if trailing then
      let _ ← maybe (character ',')
    return first :: others

/-- What `r` reads from a whole text. -/
def whole? {α : Type} (r : Reader α) (cs : List Char) : Option α :=
  match r cs with
  | some (a, []) => some a
  | _ => none

end Reader

end StackControl.Text
