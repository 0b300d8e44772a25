import TextMask.Text.Number
import TextMask.Yaml.Tag
import TextMask.Yaml.Timestamp

/-!
# Kinds of plain scalars

A plain scalar stands for a truth value, a number, null, a date or a text, depending on how it is
spelled: `yes` and `off` are truth values, `010` is octal, `1_000` an integer, `1:30` a number in
base sixty, while `08` and `1e3` are texts. `Tag.ofPlain` finds the kind of a spelling.
-/

namespace TextMask.Yaml

namespace Plain

/-- Whether the text is a nonempty run of characters of a class. -/
def isRun (f : Char → Bool) (t : Text) : Bool := !t.isEmpty && t.all f

/-- Whether the character is a digit or an underscore. -/
def isDigitOrMark (c : Char) : Bool := c.isDigit || c == '_'

/-- Whether the text begins with a digit, and digits and underscores follow. -/
def isDigits (t : Text) : Bool := (t.head?).any Char.isDigit && t.all isDigitOrMark

/-- Whether the text is a number below sixty with one or two digits. -/
def isSixtieth : Text → Bool
  | [c] => c.isDigit
  | [c, d] => '0' ≤ c && c ≤ '5' && d.isDigit
  | _ => false

/-- The pieces of a text between colons. -/
def colonPieces (t : Text) : List Text := t.splitOn ':'

/-- Whether the text is a whole number in base sixty, with at least two places. -/
def isSexagesimal (t : Text) : Bool :=
  match colonPieces t with
  | first :: second :: rest => isDigits first && (second :: rest).all isSixtieth
  | _ => false

/-- Whether the text spells an integer. -/
def isInteger (t : Text) : Bool :=
  match Number.dropSign t with
  | '0' :: 'b' :: rest => isRun (fun c => c == '0' || c == '1' || c == '_') rest
  | '0' :: 'x' :: rest => isRun (fun c => Number.isDigitIn 16 c || c == '_') rest
  | ['0'] => true
  | '0' :: rest => isRun (fun c => ('0' ≤ c && c ≤ '7') || c == '_') rest
  | rest => isDigits rest || isSexagesimal rest

/-- Whether the text is empty or an exponent with its sign. -/
def isExponent : Text → Bool
  | [] => true
  | e :: sign :: rest =>
    (e == 'e' || e == 'E') && (sign == '+' || sign == '-') && isRun Char.isDigit rest
  | _ => false

/-- Whether the text spells a fraction: digits, a point and perhaps an exponent. -/
def isFraction (t : Text) : Bool :=
  let whole := t.takeWhile (· != '.')
  let behind := (t.dropWhile (· != '.')).drop 1
  let exponent := behind.dropWhile isDigitOrMark
  t.contains '.' && isExponent exponent && isDigits whole

/-- Whether the text spells a fraction that begins with its point. -/
def isBareFraction : Text → Bool
  | '.' :: c :: rest => c.isDigit && isExponent (rest.dropWhile isDigitOrMark)
  | _ => false

/-- Whether the text is a number in base sixty with a point. -/
def isSexagesimalFraction (t : Text) : Bool :=
  t.contains '.' && isSexagesimal (t.takeWhile (· != '.')) &&
    ((t.dropWhile (· != '.')).drop 1).all isDigitOrMark

/-- The spellings of infinity, without sign. -/
def infinities : List Text := [".inf".toList, ".Inf".toList, ".INF".toList]

/-- The spellings of the number that is none. -/
def nans : List Text := [".nan".toList, ".NaN".toList, ".NAN".toList]

/-- Whether the text spells a floating point number. -/
def isReal (t : Text) : Bool :=
  isFraction (Number.dropSign t) || isBareFraction t ||
    isSexagesimalFraction (Number.dropSign t) ||
    infinities.contains (Number.dropSign t) || nans.contains t

/-- Whether the text spells a truth value. -/
def isTruth (t : Text) : Bool :=
  ["yes", "Yes", "YES", "no", "No", "NO", "true", "True", "TRUE", "false", "False", "FALSE",
    "on", "On", "ON", "off", "Off", "OFF"].contains (String.ofList t)

/-- Whether the text spells null. -/
def isNull (t : Text) : Bool := ["", "~", "null", "Null", "NULL"].contains (String.ofList t)

/-- Whether the text is a single mark that is kept for the notation itself. -/
def isReserved (t : Text) : Bool := ["!", "&", "*"].contains (String.ofList t)

/-- The text without a line feed at its end. -/
def line (t : Text) : Text := if t.getLast? == some '\n' then t.dropLast else t

end Plain

namespace Tag

/-- The kind of a text without a line feed at its end. -/
def ofLine (t : Text) : Tag :=
  if Plain.isTruth t then .bool
  else if Plain.isReal t then .float
  else if Plain.isInteger t then .int
  else if t == ['<', '<'] then .merge
  else if Plain.isNull t then .null
  else if Timestamp.isSpelledBy t then .timestamp
  else if t == ['='] then .value
  else if Plain.isReserved t then .unknown
  else .str

/-- The kind of a plain scalar. A line feed at its end does not count, but a line feed alone is a
text. -/
def ofPlain (t : Text) : Tag := if t == ['\n'] then .str else ofLine (Plain.line t)

end Tag

end TextMask.Yaml
