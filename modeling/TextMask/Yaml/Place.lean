import TextMask.Yaml.Fault

/-!
# Places in a YAML stream

`Place` is a place in the text of a YAML stream: what is left to read, and the offset, line and
column of the next character. The module also has the character classes of YAML. Line ends have been
unified to line feeds before a stream is read.
-/

namespace TextMask.Yaml

/-- Whether the character ends a line. -/
def isBreak (c : Char) : Bool :=
  c == '\n' || c == '\u0085' || c == '\u2028' || c == '\u2029'

/-- Whether the character is a space, a tab or a line end. -/
def isGap (c : Char) : Bool := c == ' ' || c == '\t' || isBreak c

/-- Whether the character may stand in a YAML stream. -/
def isAllowed (c : Char) : Bool :=
  let n := c.toNat
  n == 0x09 || n == 0x0A || n == 0x0D || (0x20 ≤ n && n ≤ 0x7E) || n == 0x85 ||
    (0xA0 ≤ n && n ≤ 0xFFFD) || 0x10000 ≤ n

/-- The byte order mark, which has no width. -/
def byteOrderMark : Char := '\ufeff'

/-- Whether the character may stand in the name of an anchor, a directive or a tag handle. -/
def isNameChar (c : Char) : Bool := c.isAlphanum || c == '-' || c == '_'

/-- A place in the text of a stream: what is left to read and how long that is, and the offset, line
and column of the next character. -/
structure Place where
  rest : Text
  left : Nat
  offset : Nat := 0
  line : Nat := 0
  column : Nat := 0
  deriving DecidableEq, Repr

namespace Place

/-- The place at the start of a text. -/
def start (t : Text) : Place := ⟨t, t.length, 0, 0, 0⟩

/-- The next character. -/
def peek (p : Place) : Option Char := p.rest.head?

/-- The character after the given number of others. -/
def peekAt (p : Place) (n : Nat) : Option Char := p.rest[n]?

/-- Whether the next character is the given one. -/
def at? (p : Place) (c : Char) : Bool := p.peek == some c

/-- Whether a gap or the end of the stream comes after the given number of characters. -/
def gapAt (p : Place) (n : Nat) : Bool := (p.peekAt n).all isGap

/-- Whether a space, a line end or the end of the stream comes next. -/
def atSpace (p : Place) : Bool := p.peek.all fun c => c == ' ' || isBreak c

/-- Whether a line end or the end of the stream comes next. -/
def atLineEnd (p : Place) : Bool := p.peek.all isBreak

/-- The place behind the next character. -/
def advance (p : Place) : Place :=
  match p.rest with
  | [] => p
  | c :: rest =>
    if isBreak c then ⟨rest, p.left - 1, p.offset + 1, p.line + 1, 0⟩
    else
      let column := if c = byteOrderMark then p.column else p.column + 1
      ⟨rest, p.left - 1, p.offset + 1, p.line, column⟩

/-- The place behind the given number of characters. -/
def advanceBy (p : Place) : Nat → Place
  | 0 => p
  | n + 1 => p.advance.advanceBy n

/-- The longest run of characters of a class, and the place behind it. -/
def span (p : Place) (f : Char → Bool) : Text × Place :=
  let run := p.rest.takeWhile f
  (run, p.advanceBy run.length)

/-- The place behind the longest run of characters of a class. -/
def skip (p : Place) (f : Char → Bool) : Place := (p.span f).2

/-- The place behind the spaces. -/
def skipSpaces (p : Place) : Place := p.skip (· == ' ')

/-- The place behind a comment, if one begins here. -/
def skipComment (p : Place) : Place := if p.at? '#' then p.skip (!isBreak ·) else p

/-- A line end as it counts in a scalar, and the place behind it. -/
def lineBreak? (p : Place) : Option (Char × Place) :=
  match p.peek with
  | none => none
  | some c =>
    if !isBreak c then none
    else some (if c == '\u2028' || c == '\u2029' then c else '\n', p.advance)

/-- Whether a mark that begins or ends a document stands here. -/
def atDocumentMark (p : Place) : Bool :=
  (p.rest.take 3 == ['-', '-', '-'] || p.rest.take 3 == ['.', '.', '.']) && p.gapAt 3

/-- Passes over spaces and a comment to the end of the line, and over the line end. -/
def finishLine (p : Place) (fault : Fault) : Except Fault Place :=
  let p := p.skipSpaces.skipComment
  if p.atLineEnd then .ok p.advance else .error fault

end Place

end TextMask.Yaml
