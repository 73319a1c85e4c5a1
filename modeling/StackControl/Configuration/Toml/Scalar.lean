import StackControl.Configuration.Value
import StackControl.Text.Quoted

/-!
# Single values of a document

Texts come in two kinds of quotes and over one or several lines.  Whole numbers have a base and may
be grouped by underscores; they must fit into 64 bits.  Of numbers with a fraction and of dates only
the form is checked, and what makes a date exist.
-/

namespace StackControl.Configuration.Toml

open Text Reader

/-- Blanks inside a line. -/
def isSpace (c : Char) : Bool :=
  c == ' ' || c == '\t'

/-- Reads blanks inside a line. -/
def spaces : Reader Unit := do
  let _ ← run isSpace

/-- Reads the end of a line. -/
def lineEnd : Reader Unit :=
  word "\n" <|> word "\r\n"

/-- Reads blanks and ends of lines. -/
def blankLines : Reader Unit := do
  let _ ← many ((do let _ ← satisfying isSpace) <|> lineEnd)

/-! ## Texts -/

/-- Reads a text in single quotes, which knows no escapes. -/
def literal : Reader String := do
  character '\''
  let cs ← run fun c => isPrintable c && c != '\''
  character '\''
  return String.ofList cs

/-- Reads one or two quotes that do not end a text. -/
def looseQuotes (quote : Char) : Reader (List Char) := do
  let quotes ← run (· == quote)
  if quotes.length == 1 || quotes.length == 2 then return quotes else failure

/-- Reads an end of line in a text; every one counts as a line feed. -/
def lineFeed : Reader (List Char) := do
  lineEnd
  return ['\n']

/-- Reads a backslash at the end of a line and all blanks up to the next text. -/
def continuation : Reader (List Char) := do
  character '\\'
  spaces
  lineEnd
  blankLines
  return []

/-- Reads a text over several lines between triple quotes.  A line end right after the opening
quotes is dropped, and up to two quotes may stand before the closing ones. -/
def multiLine (quote : Char) (piece : Reader (List Char)) : Reader String := do
  word (String.ofList [quote, quote, quote])
  let _ ← maybe lineEnd
  let body ← many (piece <|> looseQuotes quote)
  let quotes ← run (· == quote)
  if 3 ≤ quotes.length ∧ quotes.length ≤ 5 then
    return String.ofList (body.flatten ++ quotes.drop 3)
  else failure

/-- Reads a text with escapes over several lines. -/
def longQuoted : Reader String :=
  multiLine '"' (((fun c => [c]) <$> quotedCharacter) <|> lineFeed <|> continuation)

/-- Reads a text without escapes over several lines. -/
def longLiteral : Reader String :=
  multiLine '\'' (someRun (fun c => isPrintable c && c != '\'') <|> lineFeed)

/-- Reads a text. -/
def text : Reader String :=
  longQuoted <|> quoted <|> longLiteral <|> literal

/-! ## Numbers -/

/-- Reads digits of a base; an underscore may stand between two of them. -/
def groupedDigits (base : Nat) : Reader (List Char) := do
  let digit := satisfying fun c => (digit? base c).isSome
  let first ← digit
  let others ← many do
    let _ ← maybe (character '_')
    digit
  return first :: others

/-- Reads a sign and says whether it is a minus sign. -/
def negative : Reader Bool :=
  (do character '-'; return true) <|> (do character '+'; return false) <|> pure false

/-- The value of digits, if it fits into 64 bits with its sign. -/
def signed? (isNegative : Bool) (base : Nat) (digits : List Char) : Option Int := do
  let n ← digits? base digits
  let value : Int := if isNegative then -n else n
  if minSigned 64 ≤ value ∧ value ≤ maxSigned 64 then some value else none

/-- Reads a number in a base other than ten, which has no sign. -/
def basedInteger : Reader Int := do
  character '0'
  let base ← match ← next with
    | 'x' => pure 16
    | 'o' => pure 8
    | 'b' => pure 2
    | _ => failure
  match signed? false base (← groupedDigits base) with
  | some value => return value
  | none => failure

/-- Reads the digits before a fraction or an exponent; more than one do not begin with a zero. -/
def wholeDigits : Reader (List Char) := do
  let digits ← groupedDigits 10
  if digits.length > 1 && digits.head? == some '0' then failure else return digits

/-- Reads a fraction. -/
def fraction : Reader (List Char) := do
  character '.'
  groupedDigits 10

/-- Reads an exponent. -/
def exponent : Reader Int := do
  let _ ← satisfying fun c => c == 'e' || c == 'E'
  let isNegative ← negative
  let n := (digits? 10 (← groupedDigits 10)).getD 0
  return if isNegative then -n else n

/-- The smallest natural number that rounds to infinity in double precision. -/
def overflowBound : Nat :=
  Nat.pow 2 1024 - Nat.pow 2 970

/-- Whether `0.d₁d₂… · 10 ^ point` rounds to infinity in double precision.  Without leading zeros the
value is at least `10 ^ (point - 1)` and less than `10 ^ point`, so only for a point of 309 are the
digits looked at. -/
def overflows (digits : List Char) (point : Int) : Bool :=
  let significant := digits.dropWhile (· == '0')
  let point := point - ((digits.length - significant.length : Nat) : Int)
  if significant.isEmpty || point < 309 then false
  else if point > 309 then true
  else overflowBound * Nat.pow 10 significant.length ≤
    (digitsFrom? 10 0 significant).getD 0 * Nat.pow 10 309

/-- Reads a number in base ten.  One with a fraction or an exponent must not round to infinity. -/
def decimal : Reader Value := do
  let isNegative ← negative
  let whole ← wholeDigits
  let part ← maybe fraction
  let power ← maybe exponent
  match part, power with
  | none, none =>
    match signed? isNegative 10 whole with
    | some value => return .integer value
    | none => failure
  | _, _ =>
    if !isNegative && overflows (whole ++ part.getD []) (whole.length + power.getD 0) then failure
    else return .other

/-- Reads an infinity or the value that is no number. -/
def special : Reader Value := do
  let _ ← negative
  word "inf" <|> word "nan"
  return .other

/-! ## Dates and times -/

/-- Reads that many digits as a number between bounds. -/
def field (width low high : Nat) : Reader Nat := do
  let digits ← times width (satisfying Char.isDigit)
  let n := (digits? 10 digits).getD 0
  if low ≤ n ∧ n ≤ high then return n else failure

/-- The number of days of a month. -/
def daysOf (year month : Nat) : Nat :=
  if month == 2 then
    if year % 4 == 0 && (year % 100 != 0 || year % 400 == 0) then 29 else 28
  else if [4, 6, 9, 11].contains month then 30
  else 31

/-- Reads a date. -/
def date : Reader Unit := do
  let year ← field 4 0 9999
  character '-'
  let month ← field 2 1 12
  character '-'
  let _ ← field 2 1 (daysOf year month)

/-- Reads a time of day; a minute may have a leap second. -/
def timeOfDay : Reader Unit := do
  let _ ← field 2 0 23
  character ':'
  let _ ← field 2 0 59
  character ':'
  let _ ← field 2 0 60
  let _ ← maybe do
    character '.'
    someRun Char.isDigit

/-- Reads the distance of a time from universal time. -/
def offset : Reader Unit :=
  (do let _ ← satisfying fun c => c == 'Z' || c == 'z') <|> do
    let _ ← satisfying fun c => c == '+' || c == '-'
    let _ ← field 2 0 23
    character ':'
    let _ ← field 2 0 59

/-- Reads a date, a time or both. -/
def moment : Reader Value := do
  (do
    date
    let _ ← maybe do
      let _ ← satisfying fun c => c == 'T' || c == 't' || c == ' '
      timeOfDay
      maybe offset) <|> timeOfDay
  return .other

/-- Reads a value that is no list and no table. -/
def scalarValue : Reader Value :=
  (.text <$> text) <|>
  (do word "true" <|> word "false"; return .other) <|>
  moment <|> special <|> (.integer <$> basedInteger) <|> decimal

end StackControl.Configuration.Toml
