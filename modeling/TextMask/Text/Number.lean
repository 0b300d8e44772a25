import TextMask.Text.Blank
import TextMask.Text.Digit
import TextMask.Text.Quoted

/-!
# Reading numbers

Reads whole texts as numbers. Blanks may stand around a number, and its decimal digits may be those
of any script.

Main definitions:

* `Number.readInteger`: an integer in a given base, with its sign and the mark of its base;
* `Number.readReal`: the floating point number nearest to a decimal fraction, or a word for
  infinity or for no number;
* `NumberFault`: why a text is no number, and how that is reported.
-/

namespace TextMask

/-- Why a text is no number. -/
inductive NumberFault where
  | badInteger (base : Nat) (t : Text)
  | longInteger (digits : Nat)
  | badReal (t : Text)
  deriving DecidableEq, Repr

namespace Number

/-- The most digits that an integer in base ten may have. -/
def longest : Nat := 4300

/-- How many characters of a text are reported that is no integer. -/
def longestReport : Nat := 200

end Number

/-- The report of a fault. -/
def NumberFault.message : NumberFault → String
  | .badInteger base t =>
    s!"invalid literal for int() with base {base}: " ++
      String.ofList ((Quoted.encode t).take Number.longestReport)
  | .longInteger digits =>
    s!"Exceeds the limit ({Number.longest} digits) for integer string conversion: " ++
      s!"value has {digits} digits; use sys.set_int_max_str_digits() to increase the limit"
  | .badReal t => "could not convert string to float: " ++ String.ofList (Quoted.encode t)

/-- The floating point number nearest to `mantissa * 10 ^ exponent`. Far beyond both ends of the
range, where the digits do not matter, the power is not computed. -/
def realOfDecimal (negative : Bool) (mantissa : Nat) (exponent : Int) : Float :=
  let magnitude : Int := (Nat.toDigits 10 mantissa).length + exponent
  let size : Float :=
    if mantissa = 0 ∨ magnitude < -400 then 0.0
    else if magnitude > 400 then 1.0 / 0.0
    else if exponent < 0 then Float.ofScientific mantissa true (-exponent).toNat
    else Float.ofScientific mantissa false exponent.toNat
  if negative then -size else size

namespace Number

/-! ### Digits -/

/-- The value of a digit in a base up to sixteen. -/
def digitIn? (base : Nat) (c : Char) : Option Nat :=
  let value : Option Nat :=
    if c.isDigit then some (c.toNat - '0'.toNat)
    else if 'a' ≤ c && c ≤ 'f' then some (c.toNat - 'a'.toNat + 10)
    else if 'A' ≤ c && c ≤ 'F' then some (c.toNat - 'A'.toNat + 10)
    else none
  value.filter (· < base)

/-- Whether the character is a digit in a base up to sixteen. -/
def isDigitIn (base : Nat) (c : Char) : Bool := (digitIn? base c).isSome

/-- The number that digits write in a base. -/
def ofDigits (base : Nat) (digits : Text) : Nat :=
  digits.foldl (fun n c => n * base + (digitIn? base c).getD 0) 0

/-- The character as it counts in a number: a digit of another script as the digit of its value, and
white space beyond the first 127 characters as a space. -/
def plainForm (c : Char) : Char :=
  if c.toNat ≤ 0x7F then c
  else if isWhiteSpace c then ' '
  else
    match decimalDigit? c with
    | some value => Nat.digitChar value
    | none => c

/-- Whether the character may stand around a number in its plain form. -/
def isSpacing (c : Char) : Bool := c == ' ' || (0x09 ≤ c.toNat && c.toNat ≤ 0x0D)

/-- Whether the text begins with a minus sign. -/
def isNegative (t : Text) : Bool := t.head? == some '-'

/-- The rest behind an optional sign. -/
def dropSign : Text → Text
  | '+' :: rest => rest
  | '-' :: rest => rest
  | t => t

/-! ### Integers -/

/-- The letter behind a zero that marks a base. -/
def baseMark? : Nat → Option Char
  | 2 => some 'b'
  | 8 => some 'o'
  | 16 => some 'x'
  | _ => none

/-- The rest behind the mark of a base, small or capital, if there is one. -/
def dropBaseMark (base : Nat) : Text → Text
  | '0' :: mark :: rest =>
    if baseMark? base == some mark.toLower then rest else '0' :: mark :: rest
  | t => t

/-- Reads the whole text as an integer. Only a base that is no power of two limits the number of
digits. -/
def readInteger (base : Nat) (t : Text) : Except NumberFault Int :=
  let written := (t.map plainForm).dropWhile isSpacing
  let unsigned := dropBaseMark base (dropSign written)
  let digits := unsigned.takeWhile (isDigitIn base)
  if base == 10 && longest < digits.length then .error (.longInteger digits.length)
  else if digits.isEmpty || !(unsigned.drop digits.length).all isSpacing then
    .error (.badInteger base t)
  else
    let size : Int := ofDigits base digits
    .ok (if isNegative written then -size else size)

/-! ### Floating point numbers -/

/-- The value of an exponent, zero if there is none. -/
def exponent? : Text → Option Int
  | [] => some 0
  | e :: rest =>
    let digits := dropSign rest
    if (e == 'e' || e == 'E') && !digits.isEmpty && digits.all Char.isDigit then
      let size : Int := ofDigits 10 digits
      some (if isNegative rest then -size else size)
    else none

/-- The value of a decimal fraction without sign. -/
def decimal? (t : Text) : Option Float :=
  let whole := t.takeWhile Char.isDigit
  let (fraction, behind) := match t.drop whole.length with
    | '.' :: rest => (rest.takeWhile Char.isDigit, rest.dropWhile Char.isDigit)
    | rest => ([], rest)
  if (whole ++ fraction).isEmpty then none
  else
    (exponent? behind).map fun exponent =>
      realOfDecimal false (ofDigits 10 (whole ++ fraction)) (exponent - fraction.length)

/-- The value of a word for infinity or for no number, in large or small letters. -/
def word? (t : Text) : Option Float :=
  match String.ofList (t.map Char.toLower) with
  | "inf" | "infinity" => some (1.0 / 0.0)
  | "nan" => some (0.0 / 0.0)
  | _ => none

/-- The floating point number that the whole text writes. -/
def real? (t : Text) : Option Float :=
  let written := Text.trim isSpacing (t.map plainForm)
  let unsigned := dropSign written
  ((word? unsigned).or (decimal? unsigned)).map fun size =>
    if isNegative written then -size else size

/-- Reads the whole text as a floating point number. -/
def readReal (t : Text) : Except NumberFault Float :=
  match real? t with
  | some x => .ok x
  | none => .error (.badReal t)

end Number

end TextMask
