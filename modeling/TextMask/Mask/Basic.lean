import TextMask.Chain.Compile
import TextMask.Chain.Run
import TextMask.Chain.Summary

/-!
# Masks

A mask is a format with its compiled chain and the weights it scores with. `Mask.apply` formats a
text with a caret: it answers the formatted text with its caret, the extracted value, the affinity
of the text to the mask, and whether the mask is complete.
-/

namespace TextMask

/-- A compiled format. -/
structure Mask where
  format : Text
  weights : Weights
  chain : Chain
  deriving DecidableEq, Repr

/-- What a mask makes of a text. -/
structure Result where
  formatted : CaretText
  extracted : Text
  affinity : Int
  complete : Bool
  deriving DecidableEq, Repr

/-- The result in five lines. -/
def Result.report (r : Result) : String :=
  "\n".intercalate
    [s!"FORMATTED TEXT: {String.ofList r.formatted.chars}",
      s!"CARET POSITION: {r.formatted.caret}",
      s!"EXTRACTED VALUE: {String.ofList r.extracted}",
      s!"AFFINITY: {r.affinity}",
      "COMPLETE: " ++ if r.complete then "True" else "False"]

/-- What a finished run amounts to, for a text whose caret stood at the given place. -/
def Run.result (w : Weights) (caret : Nat) (r : Run) : Except RunError Result := do
  let formatted ← (CaretText.place r.written (caret + r.caretShift)).mapError .caret
  let complete ← r.left.isFilled
  return ⟨formatted, r.extracted, r.affinity w, complete⟩

namespace Mask

/-- Compiles a format into a mask. -/
def compile (format : Text) (weights : Weights) : Except FormatError Mask :=
  (Chain.compile format).map fun chain => ⟨format, weights, chain⟩

/-- Formats a text, extracts its value and scores it. -/
def apply (m : Mask) (t : CaretText) (autocomplete : Bool) : Except RunError Result := do
  let run ← m.chain.run t autocomplete
  run.result m.weights t.caret

/-- The mask by its format. -/
def report (m : Mask) : String :=
  "Mask(" ++ String.ofList (Quoted.encode m.format) ++ ")"

end Mask

end TextMask
