/-!
# Finding, replacing and cutting text

Plain substring search on lists of characters, and the cuts built on it: lines, the first
occurrence of a separator, and the replacement of every occurrence of a pattern from left to
right.
-/

namespace StackControl.Text

variable {α : Type} [BEq α]

/-- Whether `pattern` occurs somewhere in the text; the empty pattern always does. -/
def contains (pattern : List α) : List α → Bool
  | [] => pattern.isEmpty
  | c :: rest => pattern.isPrefixOf (c :: rest) || contains pattern rest

/-- Replaces occurrences of `pattern` from left to right, after skipping the given number of
characters, which belong to an occurrence that was already replaced. -/
def replaceFrom (pattern replacement : List α) : Nat → List α → List α
  | _, [] => []
  | skip + 1, _ :: rest => replaceFrom pattern replacement skip rest
  | 0, c :: rest =>
    if pattern.isPrefixOf (c :: rest) then
      replacement ++ replaceFrom pattern replacement (pattern.length - 1) rest
    else
      c :: replaceFrom pattern replacement 0 rest

/-- Replaces every occurrence of a pattern that is not empty; occurrences do not overlap and are
taken from left to right. -/
def replaceAll (pattern replacement text : List α) : List α :=
  replaceFrom pattern replacement 0 text

/-- Cuts at the first element that satisfies `p`, which is dropped. -/
def cutAt? (p : α → Bool) : List α → Option (List α × List α)
  | [] => none
  | c :: rest =>
    if p c then some ([], rest)
    else (cutAt? p rest).map fun (before, after) => (c :: before, after)

/-- Cuts at every element that satisfies `p`; `n` separators give `n + 1` parts. -/
def splitAt (p : α → Bool) : List α → List (List α)
  | [] => [[]]
  | c :: rest =>
    if p c then [] :: splitAt p rest
    else
      match splitAt p rest with
      | [] => [[c]]
      | part :: parts => (c :: part) :: parts

/-- The lines of a text without their ends, which are a line feed or a carriage return followed
by one.  A last line without an end counts when it is not empty. -/
def lines : List Char → List (List Char)
  | [] => []
  | '\n' :: rest => [] :: lines rest
  | '\r' :: '\n' :: rest => [] :: lines rest
  | c :: rest =>
    match lines rest with
    | [] => [[c]]
    | line :: others =>
      (c :: line) :: others

end StackControl.Text
