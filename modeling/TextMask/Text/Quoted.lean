import TextMask.Text.Printable

/-!
# Quoted texts

`Quoted.encode` writes a text between quotes on one line of printable characters. The quote is a
single one unless the text holds single quotes and no double ones. The quote in use, the
backslash, line feed, carriage return and tab have short escapes; any other character that does
not print is written by its code point in hexadecimal, with two, four or eight digits.
-/

namespace TextMask.Quoted

/-- The quote that a text is written between. -/
def quoteFor (t : Text) : Char :=
  if t.contains '\'' && !t.contains '"' then '"' else '\''

/-- The lowest `width` hexadecimal digits of a number. -/
def hexDigits : Nat → Nat → Text
  | 0, _ => []
  | width + 1, n => hexDigits width (n / 16) ++ [Nat.digitChar (n % 16)]

/-- A character by its code point. -/
def codeEscape (n : Nat) : Text :=
  if n < 0x100 then '\\' :: 'x' :: hexDigits 2 n
  else if n < 0x10000 then '\\' :: 'u' :: hexDigits 4 n
  else '\\' :: 'U' :: hexDigits 8 n

/-- A character as it stands between the given quotes. -/
def encodeChar (quote c : Char) : Text :=
  if c = quote ∨ c = '\\' then ['\\', c]
  else if c = '\n' then ['\\', 'n']
  else if c = '\r' then ['\\', 'r']
  else if c = '\t' then ['\\', 't']
  else if isPrintable c then [c]
  else codeEscape c.toNat

/-- The text between quotes. -/
def encode (t : Text) : Text :=
  let quote := quoteFor t
  quote :: t.flatMap (encodeChar quote) ++ [quote]

end TextMask.Quoted
