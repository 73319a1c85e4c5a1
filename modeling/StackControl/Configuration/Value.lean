/-!
# Configuration values

The sources of configuration can express more than the tool can use: every field holds a text or a
whole number.  Of any other value only that it is there is kept, because it hides a value below it and
no field accepts it.
-/

namespace StackControl.Configuration

/-- A value that a source gives to a field. -/
inductive Value
  | text (s : String)
  | integer (n : Int)
  /-- A truth value, a number with a fraction, a date, a list or a table. -/
  | other
deriving DecidableEq, Repr

/-- What one source says: fields by name; of several rows for a field the first one counts. -/
abbrev Layer := List (String × Value)

end StackControl.Configuration
