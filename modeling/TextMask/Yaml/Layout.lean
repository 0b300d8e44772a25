import TextMask.Yaml.Token

/-!
# Layout of a YAML stream

Outside brackets the indentation of a stream marks where collections begin and end, and a colon
turns what stands before it on its line into a key. `Layout` is the state of a reader that puts the
tokens for both where they belong; `stream` cuts a text into tokens up to its end or its first fault.
-/

namespace TextMask.Yaml

/-- A place on the current line where a key can have begun, should a colon follow: the bracket
depth, the number of tokens before it, whether the layout demands a key there, and the place. -/
structure KeyCandidate where
  depth : Nat
  index : Nat
  required : Bool
  offset : Nat
  line : Nat
  column : Nat
  deriving DecidableEq, Repr

/-- The tokens of a stream up to its end or to its first fault. -/
structure Stream where
  tokens : List Token
  fault : Option Fault
  deriving DecidableEq, Repr

/-- The state of the reader: where it stands, how many brackets are open, the indentation of the
block it is in and of the blocks around that one, whether a key may begin here, where keys can have
begun, and the tokens so far, the last one first, with their number. -/
structure Layout where
  place : Place
  depth : Nat := 0
  indent : Int := -1
  outer : List Int := []
  keyAllowed : Bool := true
  candidates : List KeyCandidate := []
  tokens : List Token := []
  count : Nat := 0

namespace Layout

/-- Adds a token. -/
def push (s : Layout) (t : Token) : Layout :=
  { s with tokens := t :: s.tokens, count := s.count + 1 }

/-- Adds a token in front of the token with the given index. -/
def pushAt (s : Layout) (index : Nat) (t : Token) : Layout :=
  { s with tokens := s.tokens.insertIdx (s.count - index) t, count := s.count + 1 }

/-- Goes on behind characters that need no other notice. -/
def advanceBy (s : Layout) (n : Nat) : Layout := { s with place := s.place.advanceBy n }

/-- Whether a candidate lies on another line or too far back to be a key. -/
def isStale (s : Layout) (k : KeyCandidate) : Bool :=
  k.line != s.place.line || k.offset + 1024 < s.place.offset

/-- Forgets stale candidates. One that the layout demands has to be a key. -/
def dropStale (s : Layout) : Except Fault Layout :=
  if s.candidates.any fun k => s.isStale k && k.required then .error .missingColon
  else .ok { s with candidates := s.candidates.filter fun k => !s.isStale k }

/-- The tokens in front of which no other can be put any more: those before the first candidate. -/
def settled (s : Layout) : List Token :=
  let undecided := (s.candidates.filter fun k => !s.isStale k).map (·.index)
  s.tokens.reverse.take (undecided.foldl min s.count)

/-- The candidate at the current bracket depth. -/
def candidate? (s : Layout) : Option KeyCandidate := s.candidates.find? (·.depth == s.depth)

/-- Forgets the candidate at the current bracket depth. -/
def dropCandidate (s : Layout) : Except Fault Layout :=
  match s.candidate? with
  | none => .ok s
  | some k =>
    if k.required then .error .missingColon
    else .ok { s with candidates := s.candidates.filter (·.depth != s.depth) }

/-- Notes that a key can begin here. -/
def noteCandidate (s : Layout) : Except Fault Layout :=
  if s.keyAllowed then do
    let required := s.depth == 0 && s.indent == s.place.column
    let s ← s.dropCandidate
    let p := s.place
    let k : KeyCandidate := ⟨s.depth, s.count, required, p.offset, p.line, p.column⟩
    return { s with candidates := k :: s.candidates }
  else .ok s

/-- Closes the blocks that are indented more than the given column. -/
def unwind (column : Int) : List Int → Layout → Layout
  | [], s => s
  | outer :: rest, s =>
    if column < s.indent then
      unwind column rest { s.push .blockEnd with indent := outer, outer := rest }
    else s

/-- Closes blocks, unless a bracket is open. -/
def closeBlocks (s : Layout) (column : Int) : Layout :=
  if s.depth == 0 then unwind column s.outer s else s

/-- Opens a block at a column that is indented more than the current block; tells whether it did. -/
def openBlock (s : Layout) (column : Nat) : Bool × Layout :=
  if s.indent < column then
    (true, { s with outer := s.indent :: s.outer, indent := column })
  else (false, s)

/-- Opens a block at the current column with its token, where that is called for. -/
def openBlockHere (s : Layout) (t : Token) : Layout :=
  let (opened, s) := s.openBlock s.place.column
  if opened then s.push t else s

/-- Passes over gaps and comments. A key may begin on a new line outside brackets. -/
def skipGaps : Nat → Layout → Layout
  | 0, s => s
  | fuel + 1, s =>
    let p := s.place.skipSpaces.skipComment
    match p.lineBreak? with
    | none => { s with place := p }
    | some (_, p) =>
      skipGaps fuel { s with place := p, keyAllowed := s.keyAllowed || s.depth == 0 }

/-- Ends all blocks and candidates, in front of a directive or a document mark. -/
def endBlocks (s : Layout) : Except Fault Layout := do
  let s ← (s.closeBlocks (-1)).dropCandidate
  return { s with keyAllowed := false }

/-- A document mark. -/
def documentMark (s : Layout) (t : Token) : Except Fault Layout := do
  return (← s.endBlocks).advanceBy 3 |>.push t

/-- An opening bracket, with which a key can begin and behind which one may. -/
def openBracket (s : Layout) (t : Token) : Except Fault Layout := do
  let s ← s.noteCandidate
  return ({ s with depth := s.depth + 1, keyAllowed := true }.advanceBy 1).push t

/-- A closing bracket. -/
def closeBracket (s : Layout) (t : Token) : Except Fault Layout := do
  let s ← s.dropCandidate
  return ({ s with depth := s.depth - 1, keyAllowed := false }.advanceBy 1).push t

/-- A comma. -/
def comma (s : Layout) : Except Fault Layout := do
  let s ← { s with keyAllowed := true }.dropCandidate
  return (s.advanceBy 1).push .comma

/-- A dash that begins an item of a sequence. -/
def item (s : Layout) : Except Fault Layout := do
  if s.depth == 0 && !s.keyAllowed then .error .misplacedEntry
  else
    let s := if s.depth == 0 then s.openBlockHere .blockSequence else s
    let s ← { s with keyAllowed := true }.dropCandidate
    return (s.advanceBy 1).push .item

/-- A question mark that begins a key. -/
def key (s : Layout) : Except Fault Layout := do
  if s.depth == 0 && !s.keyAllowed then .error .misplacedKey
  else
    let s := if s.depth == 0 then s.openBlockHere .blockMapping else s
    let s ← { s with keyAllowed := s.depth == 0 }.dropCandidate
    return (s.advanceBy 1).push .key

/-- A colon. What stands between the candidate and the colon becomes a key, and the mapping it
belongs to begins there if it has not begun yet. -/
def value (s : Layout) : Except Fault Layout := do
  match s.candidate? with
  | some k =>
    let s := { s with candidates := s.candidates.filter (·.depth != s.depth) }
    let s := s.pushAt k.index .key
    let s :=
      if s.depth == 0 then
        let (opened, s) := s.openBlock k.column
        if opened then s.pushAt k.index .blockMapping else s
      else s
    return ({ s with keyAllowed := false }.advanceBy 1).push .value
  | none =>
    if s.depth == 0 && !s.keyAllowed then .error .misplacedValue
    else
      let s := if s.depth == 0 then s.openBlockHere .blockMapping else s
      let s ← { s with keyAllowed := s.depth == 0 }.dropCandidate
      return (s.advanceBy 1).push .value

/-- A token that is read on its own and can be a key. -/
def content (s : Layout) (read : Place → Except Fault (Token × Place)) : Except Fault Layout := do
  let s ← s.noteCandidate
  let (t, p) ← read s.place
  return { s with keyAllowed := false, place := p }.push t

/-- A plain scalar. A key may begin behind it if it ends on another line. -/
def plainScalar (s : Layout) : Except Fault Layout := do
  let s ← s.noteCandidate
  let g := PlainScalar.read (s.depth != 0) s.indent s.place
  return { s with keyAllowed := g.newLine, place := g.place }.push (.scalar g.text true)

/-- A block scalar, behind which a key may begin. -/
def blockScalar (s : Layout) (folded : Bool) : Except Fault Layout := do
  let s ← { s with keyAllowed := true }.dropCandidate
  let (text, p) ← BlockScalar.read folded s.indent s.place
  return { s with place := p }.push (.scalar text false)

/-- A quoted scalar. -/
def quotedScalar (s : Layout) (double : Bool) : Except Fault Layout :=
  s.content fun p => do
    let (text, p) ← QuotedScalar.read double p
    return (.scalar text false, p)

/-- Whether a plain scalar can begin with this character here. -/
def beginsPlain (s : Layout) (c : Char) : Bool :=
  !(isGap c || "-?:,[]\x7b\x7d#&*!|>'\"%@`".toList.contains c) ||
    (!s.place.gapAt 1 && (c == '-' || (s.depth == 0 && (c == '?' || c == ':'))))

/-- Reads the token that begins with the given character. -/
def readToken (s : Layout) (c : Char) : Except Fault Layout :=
  let p := s.place
  let inFlow := s.depth != 0
  if c == '%' && p.column == 0 then do
    let s ← s.endBlocks
    let (t, p) ← Token.readDirective s.place
    return { s with place := p }.push t
  else if c == '-' && p.column == 0 && p.atDocumentMark then s.documentMark .documentStart
  else if c == '.' && p.column == 0 && p.atDocumentMark then s.documentMark .documentEnd
  else if c == '[' then s.openBracket .openSquare
  else if c == '\x7b' then s.openBracket .openCurly
  else if c == ']' then s.closeBracket .closeSquare
  else if c == '\x7d' then s.closeBracket .closeCurly
  else if c == ',' then s.comma
  else if c == '-' && p.gapAt 1 then s.item
  else if c == '?' && (inFlow || p.gapAt 1) then s.key
  else if c == ':' && (inFlow || p.gapAt 1) then s.value
  else if c == '*' then s.content fun p => do
    let (name, p) ← Token.readName p
    return (.alias name, p)
  else if c == '&' then s.content fun p => do
    let (name, p) ← Token.readName p
    return (.anchor name, p)
  else if c == '!' then s.content Token.readTag
  else if c == '|' && !inFlow then s.blockScalar false
  else if c == '>' && !inFlow then s.blockScalar true
  else if c == '\'' then s.quotedScalar false
  else if c == '"' then s.quotedScalar true
  else if s.beginsPlain c then s.plainScalar
  else .error (.noToken c)

/-- Reads one token with the gap and the ends of blocks before it, or the end of the stream; tells
whether the stream goes on. -/
def step (s : Layout) : Except Fault (Bool × Layout) := do
  let s := skipGaps (s.place.left + 1) s
  let s ← s.dropStale
  let s := s.closeBlocks s.place.column
  match s.place.peek with
  | none => return (false, ← s.endBlocks)
  | some c => return (true, ← s.readToken c)

/-- Reads tokens up to the end of the stream. At a fault the tokens are left that were settled
before it. -/
def readAll : Nat → Layout → Stream
  | 0, s => ⟨s.settled, some .outOfDepth⟩
  | fuel + 1, s =>
    match s.step with
    | .error fault => ⟨s.settled, some fault⟩
    | .ok (true, s) => readAll fuel s
    | .ok (false, s) => ⟨s.tokens.reverse, none⟩

end Layout

/-- The tokens of a text. A byte order mark at its start is passed over. A character that may not
stand in a stream is found before anything else. -/
def stream (text : Text) : Stream :=
  match text.find? (!isAllowed ·) with
  | some c => ⟨[], some (.unprintable c)⟩
  | none =>
    let start := Place.start text
    let start := if start.at? byteOrderMark then start.advance else start
    Layout.readAll (start.left + 2) { place := start }

end TextMask.Yaml
