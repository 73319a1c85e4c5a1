/-!
# Whole numbers

Readers for the whole numbers that appear on command lines, in process listings, in archive
headers and in configuration.  They take ASCII digits only, allow a leading sign where the field
does, and refuse a value outside the bounds of its field.
-/

namespace StackControl.Text

/-- The value of a digit or of a letter that continues the digits; letters count in either case. -/
def digitValue? (c : Char) : Option Nat :=
  if c.isDigit then some (c.toNat - '0'.toNat)
  else if c.isLower then some (c.toNat - 'a'.toNat + 10)
  else if c.isUpper then some (c.toNat - 'A'.toNat + 10)
  else none

/-- The value of a digit in a base. -/
def digit? (base : Nat) (c : Char) : Option Nat :=
  (digitValue? c).filter (· < base)

/-- The value of a run of digits, continuing from `value`. -/
def digitsFrom? (base : Nat) : Nat → List Char → Option Nat
  | value, [] => some value
  | value, c :: rest => do
    let d ← digit? base c
    digitsFrom? base (value * base + d) rest

/-- The value of a run of digits that is not empty. -/
def digits? (base : Nat) (cs : List Char) : Option Nat :=
  if cs.isEmpty then none else digitsFrom? base 0 cs

/-- A natural number of at most `max`, with an optional plus sign. -/
def natural? (base max : Nat) (cs : List Char) : Option Nat := do
  let value ← digits? base (match cs with
    | '+' :: rest => rest
    | _ => cs)
  if value ≤ max then some value else none

/-- A whole number between `min` and `max`, with an optional sign. -/
def integer? (min max : Int) (cs : List Char) : Option Int := do
  let value ← match cs with
    | '-' :: rest => (digits? 10 rest).map fun n => -(n : Int)
    | '+' :: rest => (digits? 10 rest).map Int.ofNat
    | _ => (digits? 10 cs).map Int.ofNat
  if min ≤ value ∧ value ≤ max then some value else none

/-- The number of values of an unsigned field of that many bits. -/
def countUnsigned (bits : Nat) : Nat :=
  Nat.pow 2 bits

/-- The largest value of an unsigned field of that many bits. -/
def maxUnsigned (bits : Nat) : Nat :=
  countUnsigned bits - 1

/-- The smallest value of a signed field of that many bits. -/
def minSigned (bits : Nat) : Int :=
  -(countUnsigned (bits - 1) : Int)

/-- The largest value of a signed field of that many bits. -/
def maxSigned (bits : Nat) : Int :=
  (countUnsigned (bits - 1) : Int) - 1

end StackControl.Text
