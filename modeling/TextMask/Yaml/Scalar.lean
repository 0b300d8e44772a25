import TextMask.Yaml.Place

/-!
# Scalars of a YAML stream

Reads the four ways in which a scalar is written: plain, in single quotes, in double quotes, and as
an indented block. Line ends inside a scalar are folded: a single one becomes a space, and of
several in a row the first is dropped.
-/

namespace TextMask.Yaml

/-- The text that a line end and the empty lines behind it leave in a folded scalar. -/
def foldBreaks (first : Char) (others : Text) : Text :=
  if first != '\n' then first :: others
  else if others.isEmpty then [' ']
  else others

/-! ### Plain scalars -/

namespace PlainScalar

/-- Characters that end a plain scalar inside brackets. -/
def isFlowMark (c : Char) : Bool := [',', '?', '[', ']', '\x7b', '\x7d'].contains c

/-- Whether a colon with this character behind it ends a plain scalar. -/
def endsKey (inFlow : Bool) : Option Char → Bool
  | none => true
  | some c => isGap c || (inFlow && c != '?' && isFlowMark c)

/-- The part of a plain scalar up to the next gap. -/
def word (inFlow : Bool) : Text → Text
  | [] => []
  | c :: rest =>
    if isGap c || (c == ':' && endsKey inFlow rest.head?) || (inFlow && isFlowMark c) then []
    else c :: word inFlow rest

/-- What stands between two words: the text that it leaves, whether it reaches another line, and
the place behind it. A document mark ends the scalar. -/
structure Gap where
  text : Text
  newLine : Bool
  place : Place

/-- Empty lines and spaces in front of the next word. -/
def blankLines (first : Char) : Nat → Text → Place → Gap
  | 0, breaks, p => ⟨foldBreaks first breaks.reverse, true, p⟩
  | fuel + 1, breaks, p =>
    if p.at? ' ' then blankLines first fuel breaks p.advance
    else
      match p.lineBreak? with
      | none => ⟨foldBreaks first breaks.reverse, true, p⟩
      | some (c, p) =>
        if p.atDocumentMark then ⟨[], true, p⟩
        else blankLines first fuel (c :: breaks) p

/-- The gap behind a word. -/
def gap (p : Place) : Gap :=
  let (spaces, p) := p.span (· == ' ')
  match p.lineBreak? with
  | none => ⟨spaces, false, p⟩
  | some (c, p) =>
    if p.atDocumentMark then ⟨[], true, p⟩ else blankLines c p.left [] p

/-- Reads words and gaps; `found` holds those that were read, the last one first. The scalar ends at
a comment, and outside brackets at a line that is not indented more than the block around it. -/
def words (inFlow : Bool) (indent : Int) : Nat → List Text → Gap → Gap
  | 0, found, g => ⟨found.reverse.flatten, g.newLine, g.place⟩
  | fuel + 1, found, g =>
    let run := word inFlow g.place.rest
    if g.place.at? '#' || run.isEmpty then ⟨found.reverse.flatten, g.newLine, g.place⟩
    else
      let found := run :: g.text :: found
      let next := gap (g.place.advanceBy run.length)
      if next.text.isEmpty || next.place.at? '#' ||
          (!inFlow && (next.place.column : Int) < indent + 1) then
        ⟨found.reverse.flatten, next.newLine, next.place⟩
      else words inFlow indent fuel found next

/-- The plain scalar that begins here, whether its end lies on another line, and its end. -/
def read (inFlow : Bool) (indent : Int) (p : Place) : Gap :=
  words inFlow indent (p.left + 1) [] ⟨[], false, p⟩

end PlainScalar

/-! ### Quoted scalars -/

namespace QuotedScalar

/-- The character that a one-letter escape stands for. -/
def shortEscape? (c : Char) : Option Char :=
  [('0', '\x00'), ('a', '\x07'), ('b', '\x08'), ('t', '\t'), ('\t', '\t'), ('n', '\n'),
    ('v', '\x0b'), ('f', '\x0c'), ('r', '\r'), ('e', '\x1b'), (' ', ' '), ('"', '"'),
    ('\\', '\\'), ('/', '/'), ('N', '\u0085'), ('_', '\u00a0'), ('L', '\u2028'),
    ('P', '\u2029')].lookup c

/-- How many hexadecimal digits follow an escape of a code point. -/
def escapeWidth? (c : Char) : Option Nat := [('x', 2), ('u', 4), ('U', 8)].lookup c

/-- The character with a code point; a surrogate has none of its own. -/
def charOfCode (n : Nat) : Except Fault Char :=
  if 0x7FFFFFFF < n then .error (.breakdown .wideCodePoint)
  else if 0x10FFFF < n then .error (.value .codePoint)
  else if 0xD800 ≤ n && n ≤ 0xDFFF then .ok '\ufffd'
  else .ok (Char.ofNat n)

/-- Line ends and the blanks around them. No document mark may stand at the start of a line. -/
def breaks : Nat → Text → Place → Except Fault (Text × Place)
  | 0, _, _ => .error .outOfDepth
  | fuel + 1, found, p =>
    if p.atDocumentMark then .error .unclosedQuote
    else
      let p := p.skip fun c => c == ' ' || c == '\t'
      match p.lineBreak? with
      | none => .ok (found.reverse, p)
      | some (c, p) => breaks fuel (c :: found) p

/-- The escape behind a backslash. -/
def escape (p : Place) : Except Fault (Text × Place) :=
  match p.peek with
  | none => .error .badEscape
  | some c =>
    match shortEscape? c, escapeWidth? c, p.lineBreak? with
    | some d, _, _ => .ok ([d], p.advance)
    | none, some width, _ => do
      let digits := (p.rest.drop 1).take width
      if digits.length = width && digits.all (Number.isDigitIn 16) then
        let d ← charOfCode (Number.ofDigits 16 digits)
        return ([d], p.advanceBy (width + 1))
      else .error .badEscape
    | none, none, some (_, p) => breaks (p.left + 1) [] p
    | none, none, none => .error .badEscape

/-- Reads up to the next gap or the closing quote; `found` holds what was read, the last character
first. -/
def word (double : Bool) : Nat → Text → Place → Except Fault (Text × Place)
  | 0, _, _ => .error .outOfDepth
  | fuel + 1, found, p =>
    match p.peek with
    | none => .ok (found.reverse, p)
    | some c =>
      if isGap c then .ok (found.reverse, p)
      else if !double && c == '\'' then
        if p.peekAt 1 == some '\'' then word double fuel ('\'' :: found) (p.advanceBy 2)
        else .ok (found.reverse, p)
      else if double && c == '"' then .ok (found.reverse, p)
      else if double && c == '\\' then do
        let (escaped, p) ← escape p.advance
        word double fuel (escaped.reverse ++ found) p
      else word double fuel (c :: found) p.advance

/-- The gap between two words. -/
def gap (p : Place) : Except Fault (Text × Place) :=
  let (blanks, p) := p.span fun c => c == ' ' || c == '\t'
  match p.peek, p.lineBreak? with
  | none, _ => .error .unclosedQuote
  | some _, none => .ok (blanks, p)
  | some _, some (c, p) => do
    let (others, p) ← breaks (p.left + 1) [] p
    return (foldBreaks c others, p)

/-- Reads words and gaps up to the closing quote; `found` holds those that were read, the last one
first. -/
def words (double : Bool) : Nat → List Text → Place → Except Fault (Text × Place)
  | 0, _, _ => .error .outOfDepth
  | fuel + 1, found, p =>
    if p.at? (if double then '"' else '\'') then .ok (found.reverse.flatten, p.advance)
    else do
      let (blanks, p) ← gap p
      let (run, p) ← word double (p.left + 1) [] p
      words double fuel (run :: blanks :: found) p

/-- The quoted scalar that begins here with its opening quote. -/
def read (double : Bool) (p : Place) : Except Fault (Text × Place) := do
  let p := p.advance
  let (run, p) ← word double (p.left + 1) [] p
  words double (p.left + 1) [run] p

end QuotedScalar

/-! ### Block scalars -/

namespace BlockScalar

/-- What happens to the line ends at the end of a block. -/
inductive Chomping where
  | strip
  | clip
  | keep
  deriving DecidableEq, Repr

/-- The header of a block: its chomping and its indentation, if it tells one. -/
structure Header where
  chomping : Chomping
  increment : Option Nat
  deriving DecidableEq, Repr

/-- The chomping that a mark asks for. -/
def chompingOf? : Option Char → Option Chomping
  | some '+' => some .keep
  | some '-' => some .strip
  | _ => none

/-- The indentation that a digit asks for. -/
def incrementOf (c : Option Char) : Except Fault (Option Nat) :=
  match c with
  | some d =>
    if d == '0' then .error .badBlockHeader
    else if d.isDigit then .ok (some (d.toNat - '0'.toNat))
    else .ok none
  | none => .ok none

/-- Reads a header behind the mark that begins a block: chomping and indentation, in any order. -/
def header (p : Place) : Except Fault (Header × Place) := do
  let (header, p) ← match chompingOf? p.peek with
    | some chomping => do
      let p := p.advance
      let increment ← incrementOf p.peek
      pure (Header.mk chomping increment, if increment.isSome then p.advance else p)
    | none => do
      match ← incrementOf p.peek with
      | none => pure (Header.mk .clip none, p)
      | some n =>
        let p := p.advance
        match chompingOf? p.peek with
        | some chomping => pure (Header.mk chomping (some n), p.advance)
        | none => pure (Header.mk .clip (some n), p)
  if p.atSpace then return (header, ← p.finishLine .badBlockHeader) else .error .badBlockHeader

/-- Empty lines at the start of a block whose indentation is not known: the line ends, the widest
indentation, and the place behind. -/
def findIndent : Nat → Text → Nat → Place → Text × Nat × Place
  | 0, found, widest, p => (found.reverse, widest, p)
  | fuel + 1, found, widest, p =>
    if p.at? ' ' then
      let p := p.advance
      findIndent fuel found (max widest p.column) p
    else
      match p.lineBreak? with
      | some (c, p) => findIndent fuel (c :: found) widest p
      | none => (found.reverse, widest, p)

/-- Passes over spaces up to a column. -/
def indentTo (indent : Nat) : Nat → Place → Place
  | 0, p => p
  | fuel + 1, p => if p.column < indent && p.at? ' ' then indentTo indent fuel p.advance else p

/-- Empty lines in a block. -/
def emptyLines (indent : Nat) : Nat → Text → Place → Text × Place
  | 0, found, p => (found.reverse, p)
  | fuel + 1, found, p =>
    let p := indentTo indent p.left p
    match p.lineBreak? with
    | none => (found.reverse, p)
    | some (c, p) => emptyLines indent fuel (c :: found) p

/-- Whether a line of the block begins here. -/
def atLine (indent : Nat) (p : Place) : Bool := p.column == indent && p.peek.isSome

/-- Whether the next character is neither a space nor a tab. -/
def atText (p : Place) : Bool := p.peek.all fun c => c != ' ' && c != '\t'

/-- Reads the lines of a block; `found` holds the pieces that were read, the last one first. The
answer holds the text without its last line end, that line end, and the line ends of the empty lines
behind it. -/
def lines (folded : Bool) (indent : Nat) :
    Nat → List Text → Text → Place → Text × Text × Text × Place
  | 0, found, empty, p => (found.reverse.flatten, [], empty, p)
  | fuel + 1, found, empty, p =>
    let startsWithText := atText p
    let (line, p) := p.span (!isBreak ·)
    let found := line :: empty :: found
    let (lineEnd, p) := match p.lineBreak? with
      | some (c, p) => ([c], p)
      | none => ([], p)
    let (empty, p) := emptyLines indent (p.left + 1) [] p
    if atLine indent p then
      let joint :=
        if folded && lineEnd == ['\n'] && startsWithText && atText p then
          if empty.isEmpty then [' '] else []
        else lineEnd
      lines folded indent fuel (joint :: found) empty p
    else (found.reverse.flatten, lineEnd, empty, p)

/-- The block scalar that begins here with its mark, inside a block of the given indentation. -/
def read (folded : Bool) (parent : Int) (p : Place) : Except Fault (Text × Place) := do
  let (header, p) ← header p.advance
  let least := (max (parent + 1) 1).toNat
  let (indent, empty, p) := match header.increment with
    | none =>
      let (empty, widest, p) := findIndent (p.left + 1) [] 0 p
      (max least widest, empty, p)
    | some n =>
      let indent := least + n - 1
      let (empty, p) := emptyLines indent (p.left + 1) [] p
      (indent, empty, p)
  let (text, lineEnd, empty, p) :=
    if atLine indent p then lines folded indent (p.left + 1) [] empty p
    else ([], [], empty, p)
  match header.chomping with
  | .strip => return (text, p)
  | .clip => return (text ++ lineEnd, p)
  | .keep => return (text ++ lineEnd ++ empty, p)

end BlockScalar

end TextMask.Yaml
