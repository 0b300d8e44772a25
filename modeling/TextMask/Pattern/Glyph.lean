import TextMask.Text.Basic

/-!
# Glyphs: the units of a pattern

A backslash in a pattern takes the next character out of its special role. `Glyph.read` cuts a
pattern into plain characters, escaped ones and, where the pattern ends in a backslash that escapes
nothing, a dangling one; `Glyph.text` writes a glyph back.
-/

namespace TextMask

/-- The mark that escapes the next character. -/
def escapeMark : Char := '\\'

/-- The mark for any number of further characters. -/
def ellipsisMark : Char := '…'

/-- The two kinds of groups, told apart by their brackets. -/
inductive Bracket where
  | square
  | curly
  deriving DecidableEq, Repr

namespace Bracket

/-- The bracket that opens a group. -/
def opening : Bracket → Char
  | .square => '['
  | .curly => '\x7b'

/-- The bracket that closes a group. -/
def closing : Bracket → Char
  | .square => ']'
  | .curly => '\x7d'

/-- The kind of group that a character opens. -/
def ofOpening? (c : Char) : Option Bracket :=
  if c = Bracket.square.opening then some .square
  else if c = Bracket.curly.opening then some .curly
  else none

/-- The kind of group that a character closes. -/
def ofClosing? (c : Char) : Option Bracket :=
  if c = Bracket.square.closing then some .square
  else if c = Bracket.curly.closing then some .curly
  else none

end Bracket

/-- A unit of a pattern. -/
inductive Glyph where
  | plain (c : Char)
  | escaped (c : Char)
  | dangling
  deriving DecidableEq, Repr

namespace Glyph

/-- The glyph as it is written in a pattern. -/
def text : Glyph → Text
  | .plain c => [c]
  | .escaped c => [escapeMark, c]
  | .dangling => [escapeMark]

/-- The number of characters of the glyph in its pattern. -/
def width (g : Glyph) : Nat := g.text.length

/-- The kind of group that the glyph opens. -/
def opens? : Glyph → Option Bracket
  | .plain c => Bracket.ofOpening? c
  | _ => none

/-- The kind of group that the glyph closes. -/
def closes? : Glyph → Option Bracket
  | .plain c => Bracket.ofClosing? c
  | _ => none

/-- The glyphs of a pattern. -/
def read : Text → List Glyph
  | [] => []
  | c :: rest =>
    if c = escapeMark then
      match rest with
      | [] => [.dangling]
      | d :: rest => .escaped d :: read rest
    else
      .plain c :: read rest

/-- Reading loses nothing: the glyphs of a pattern spell it. -/
theorem flatMap_text_read (p : Text) : (read p).flatMap text = p := by
  fun_induction read p with
  | case1 => rfl
  | case2 => simp [text]
  | case3 d rest ih => simp [text, ih]
  | case4 c rest _ ih => simp [text, ih]

end Glyph

end TextMask
