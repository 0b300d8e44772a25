import TextMask.Pattern.Fault

/-!
# Parts of a pattern

A pattern is a sequence of free glyphs, fixed groups in curly brackets and value groups in square
brackets. Groups do not nest. `Part.read` takes a pattern apart; it fails at the first bracket that
cannot stand where it does, or at the opening bracket of a group that is never closed.
-/

namespace TextMask

/-- A free glyph or a group of a pattern. A value group remembers where its body begins. -/
inductive Part where
  | free (glyph : Glyph)
  | fixed (body : List Glyph)
  | value (start : Nat) (body : List Glyph)
  deriving DecidableEq, Repr

/-- A group whose closing bracket has not been read: its kind, the position of its opening bracket
and the glyphs of its body, the last one first. -/
structure OpenGroup where
  bracket : Bracket
  position : Nat
  body : List Glyph
  deriving DecidableEq, Repr

namespace OpenGroup

/-- The group with one more glyph in its body. -/
def push (group : OpenGroup) (glyph : Glyph) : OpenGroup :=
  { group with body := glyph :: group.body }

/-- The part that the group is once it has been closed. -/
def close (group : OpenGroup) : Part :=
  match group.bracket with
  | .square => .value (group.position + 1) group.body.reverse
  | .curly => .fixed group.body.reverse

end OpenGroup

namespace Part

/-- Takes glyphs apart from a position on, inside the given group if there is one. -/
def readFrom (position : Nat) (group : Option OpenGroup) :
    List Glyph → Except PatternFault (List Part)
  | [] =>
    match group with
    | none => .ok []
    | some group => .error (.unclosed group.bracket group.position)
  | glyph :: rest =>
    let after := position + glyph.width
    match group, glyph.opens?, glyph.closes? with
    | some _, some bracket, _ => .error (.nested bracket position)
    | none, some bracket, _ => readFrom after (some ⟨bracket, position, []⟩) rest
    | none, none, some bracket => .error (.unexpected bracket position)
    | some group, none, some bracket =>
      if group.bracket = bracket then
        (group.close :: ·) <$> readFrom after none rest
      else
        .error (.unexpected bracket position)
    | none, none, none => (.free glyph :: ·) <$> readFrom after none rest
    | some group, none, none => readFrom after (some (group.push glyph)) rest

/-- The parts of a pattern. -/
def read (pattern : Text) : Except PatternFault (List Part) :=
  readFrom 0 none (Glyph.read pattern)

end Part

end TextMask
