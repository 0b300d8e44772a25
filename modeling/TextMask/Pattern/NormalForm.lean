import TextMask.Pattern.Part
import TextMask.Pattern.Run

/-!
# Normal form of patterns

`normalize` accepts the patterns with flat, matched and closed groups and nothing but symbols and
ellipses in value groups. It leaves free text and fixed groups alone and writes every run of a
value group, in normal order, as a group of its own.
-/

namespace TextMask

/-- The text of a part in normal form. -/
def Part.normalize : Part → Except PatternFault Text
  | .free glyph => .ok glyph.text
  | .fixed body =>
    .ok (Bracket.curly.opening :: body.flatMap Glyph.text ++ [Bracket.curly.closing])
  | .value start body =>
    (fun entries => (Entry.runs entries).flatMap fun run => Entry.groupText (Entry.inOrder run))
      <$> Entry.read start body

/-- The normal form of a pattern, or its first fault: brackets are checked before symbols. -/
def normalForm (pattern : Text) : Except PatternFault Text := do
  let parts ← Part.read pattern
  let texts ← parts.mapM Part.normalize
  return texts.flatten

/-- The normal form of a pattern, or the reason why it is no format. -/
def normalize (pattern : Text) : Except FormatError Text :=
  (normalForm pattern).mapError fun fault => ⟨pattern, fault⟩

end TextMask
