import TextMask.Yaml.Scalar

/-!
# Tokens of a YAML stream

The tokens that a stream is cut into, and the readers of those that consist of a name: directives,
anchors, aliases and tags. Nothing here depends on the layout of the stream.
-/

namespace TextMask.Yaml

/-- A directive at the head of a document. -/
inductive Directive where
  | version (major : Nat)
  | handle (name replacement : Text)
  | other
  deriving DecidableEq, Repr

/-- A token. The starts and ends of block collections come from the indentation. -/
inductive Token where
  | directive (d : Directive)
  | documentStart
  | documentEnd
  | blockSequence
  | blockMapping
  | blockEnd
  | openSquare
  | closeSquare
  | openCurly
  | closeCurly
  | item
  | comma
  | key
  | value
  | alias (name : Text)
  | anchor (name : Text)
  | tag (handle : Option Text) (suffix : Text)
  | scalar (text : Text) (plain : Bool)
  deriving DecidableEq, Repr

namespace Token

/-- Characters of a tag that stand for themselves. -/
def isTagChar (c : Char) : Bool :=
  isNameChar c || ";/?:@&=+$,.!~*'()[]".toList.contains c

/-- Bytes that are written with percent signs. -/
def percentBytes : Nat → Place → Except Fault (List UInt8 × Place)
  | 0, p => .ok ([], p)
  | fuel + 1, p =>
    if p.at? '%' then
      let digits := (p.rest.drop 1).take 2
      if digits.length == 2 && digits.all (Number.isDigitIn 16) then do
        let (bytes, p) ← percentBytes fuel (p.advanceBy 3)
        return (UInt8.ofNat (Number.ofDigits 16 digits) :: bytes, p)
      else .error .badTag
    else .ok ([], p)

/-- Whether a list of bytes is one whole text in UTF-8. -/
def textOfBytes (bytes : List UInt8) : Except Fault Text :=
  match String.fromUTF8? ⟨bytes.toArray⟩ with
  | some s => .ok s.toList
  | none => .error .badTag

/-- The pieces of a tag, in which characters may be written as bytes. -/
def tagPieces : Nat → Place → Except Fault (Text × Place)
  | 0, p => .ok ([], p)
  | fuel + 1, p => do
    let (run, p) := p.span isTagChar
    if p.at? '%' then
      let (bytes, p) ← percentBytes p.left p
      let text ← textOfBytes bytes
      let (more, p) ← tagPieces fuel p
      return (run ++ text ++ more, p)
    else return (run, p)

/-- The text of a tag, which may not be empty. -/
def tagText (p : Place) : Except Fault (Text × Place) := do
  let (text, q) ← tagPieces (p.left + 1) p
  if q.offset == p.offset then .error .badTag else return (text, q)

/-- A tag handle: an exclamation mark, alone or with a name and another mark. -/
def tagHandle (p : Place) : Except Fault (Text × Place) :=
  if !p.at? '!' then .error .badTag
  else
    let p := p.advance
    if p.at? ' ' then .ok (['!'], p)
    else
      let (name, p) := p.span isNameChar
      if p.at? '!' then .ok ('!' :: name ++ ['!'], p.advance) else .error .badTag

/-- The tag that begins here. -/
def readTag (p : Place) : Except Fault (Token × Place) := do
  let (token, p) ←
    if p.peekAt 1 == some '<' then do
      let (suffix, p) ← tagText (p.advanceBy 2)
      if p.at? '>' then pure (Token.tag none suffix, p.advance) else .error .badTag
    else if p.gapAt 1 then pure (Token.tag none ['!'], p.advance)
    else do
      let written := (p.rest.drop 1).takeWhile fun c => c != ' ' && !isBreak c
      let (handle, p) ← if written.contains '!' then tagHandle p else pure (['!'], p.advance)
      let (suffix, p) ← tagText p
      pure (Token.tag (some handle) suffix, p)
  if p.atSpace then return (token, p) else .error .badTag

/-- The name behind the mark of an anchor or an alias. -/
def readName (p : Place) : Except Fault (Text × Place) :=
  let (name, p) := p.advance.span isNameChar
  let ends := p.peek.all fun c => isGap c || "?:,]\x7d%@`".toList.contains c
  if name.isEmpty || !ends then .error .badAnchor else .ok (name, p)

/-- The digits of a version number. -/
def versionPart (p : Place) : Except Fault (Nat × Place) :=
  let (digits, p) := p.span Char.isDigit
  if digits.isEmpty then .error .badDirective
  else if Number.longest < digits.length then
    .error (.value (.number (.longInteger digits.length)))
  else .ok (Number.ofDigits 10 digits, p)

/-- The value of a directive that tells the version. -/
def versionDirective (p : Place) : Except Fault (Directive × Place) := do
  let (major, p) ← versionPart p.skipSpaces
  if p.at? '.' then
    let (_, p) ← versionPart p.advance
    if p.atSpace then return (.version major, p) else .error .badDirective
  else .error .badDirective

/-- The value of a directive that explains a tag handle. -/
def handleDirective (p : Place) : Except Fault (Directive × Place) := do
  let (name, p) ← tagHandle p.skipSpaces
  if p.at? ' ' then
    let (replacement, p) ← tagText p.skipSpaces
    if p.atSpace then return (.handle name replacement, p) else .error .badDirective
  else .error .badDirective

/-- The directive that begins here. A directive with another name is passed over. -/
def readDirective (p : Place) : Except Fault (Token × Place) := do
  let (name, p) := p.advance.span isNameChar
  if name.isEmpty || !p.atSpace then .error .badDirective
  else
    let (d, p) ←
      if name == "YAML".toList then versionDirective p
      else if name == "TAG".toList then handleDirective p
      else pure (Directive.other, p.skip (!isBreak ·))
    return (.directive d, ← p.finishLine .badDirective)

end Token

end TextMask.Yaml
