import TextMask.Pattern.Fault
import TextMask.Pattern.Symbol

/-!
# Runs of a value group

A value group is cut into runs of one family. An ellipsis belongs to the run of the symbol before
it; ellipses at the start of a group make a run of their own. In normal order a run has its
mandatory symbols first, then its optional ones, then its ellipses.
-/

namespace TextMask

namespace Entry

/-- The entries of a value group whose body begins at a position. -/
def read (position : Nat) : List Glyph → Except PatternFault (List Entry)
  | [] => .ok []
  | .plain c :: rest =>
    match ofChar? c with
    | some entry => (entry :: ·) <$> read (position + 1) rest
    | none => .error (.unsupported c (some position))
  | _ :: _ => .error (.unsupported escapeMark (some position))

/-- Every entry with the family of the last symbol up to it, which is `family` at the start. -/
def withFamily (family : Option CharClass) : List Entry → List (Option CharClass × Entry)
  | [] => []
  | .symbol s :: rest => (some s.charClass, .symbol s) :: withFamily (some s.charClass) rest
  | .ellipsis :: rest => (family, .ellipsis) :: withFamily family rest

/-- The runs of a value group. -/
def runs (entries : List Entry) : List (List Entry) :=
  ((withFamily none entries).splitBy fun a b => a.1 == b.1).map fun run => run.map (·.2)

/-- A run in normal order. -/
def inOrder (run : List Entry) : List Entry :=
  run.filter isMandatory ++ run.filter isOptional ++ run.filter isEllipsis

/-- A value group that holds the entries. -/
def groupText (run : List Entry) : Text :=
  Bracket.square.opening :: run.map toChar ++ [Bracket.square.closing]

end Entry

end TextMask
