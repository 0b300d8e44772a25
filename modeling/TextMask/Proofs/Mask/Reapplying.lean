import TextMask.Proofs.Mask.AtEnd
import TextMask.Proofs.Mask.Separated

/-!
# Reapplying a separated mask

A text that was formatted by a separated mask is formatted: the mask leaves it as it is. The second
run need not stop at the same slot as the first, which may have skipped optional slots for a
character that it dropped in the end, but it stops at most that many optional slots earlier.

* `Result.Agrees`: results that differ in the affinity only;
* `apply_of_keeps`: the result of a text that the chain keeps;
* `reapply_of_keeps`: reapplying a mask whose chain keeps what was written;
* `reapply_separated`: reapplying a separated mask changes nothing.
-/

namespace TextMask

open Chain

/-- Results that agree in all but the affinity. -/
structure Result.Agrees (r r' : Result) : Prop where
  formatted : r.formatted = r'.formatted
  extracted : r.extracted = r'.extracted
  complete : r.complete = r'.complete

variable {m : Mask} {text value : Text} {autocomplete : Bool} {events : List Event}
  {steps : List Step} {reached left left' : Chain}

/-- **A text that the chain keeps is formatted.** -/
theorem apply_of_keeps (h : m.chain.Regular) (hk : Keeps m.chain text value left)
    (autocomplete : Bool) (hstop : autocomplete = true → left.autocomplete = .ok none) :
    ∃ r, m.apply (.atEnd text) autocomplete = .ok r ∧ r.formatted = .atEnd text ∧
      r.extracted = value ∧ r.complete = !left.any Slot.isMandatory := by
  obtain ⟨events, ht, hwritten, hextracted⟩ := hk.trace true
  obtain ⟨r, hr, -, hformatted, hvalue, hcomplete⟩ := apply_of_trace h ht (finish_of_stop hstop)
  rw [hwritten, List.flatMap_nil, List.append_nil] at hformatted
  rw [hextracted, List.flatMap_nil, List.append_nil] at hvalue
  exact ⟨r, hr, hformatted, hvalue, hcomplete⟩

/-- **Reapplying a mask changes nothing** if the chain keeps the output, and lags behind by optional
slots only. -/
theorem reapply_of_keeps (h : m.chain.Regular)
    (ht : Trace m.chain (text.map (·, true)) events reached)
    (hf : reached.finish autocomplete = .ok (steps, left))
    (hstop : autocomplete = true → left.autocomplete = .ok none)
    (hk : Keeps m.chain
      (events.flatMap Event.written ++ steps.flatMap fun s => s.insert.getD [])
      (events.flatMap Event.extracted ++ steps.flatMap fun s => s.value.getD []) left')
    (hl : Lags left' left) :
    ∃ r r', m.apply (.atEnd text) autocomplete = .ok r ∧
      m.apply (.atEnd r.formatted.chars) autocomplete = .ok r' ∧ r'.Agrees r := by
  obtain ⟨r, hr, -, hformatted, hextracted, hcomplete⟩ := apply_of_trace h ht hf
  obtain ⟨r', hr', hformatted', hextracted', hcomplete'⟩ :=
    apply_of_keeps h hk autocomplete fun ha => hl.autocomplete (hstop ha)
  refine ⟨r, r', hr, ?_, ?_, ?_, ?_⟩
  · rw [hformatted]
    exact hr'
  · rw [hformatted', hformatted]
  · rw [hextracted', hextracted]
  · rw [hcomplete', hcomplete, hl.any_isMandatory]

/-- **Reapplying a separated mask changes nothing.** For every text and either setting of
completion, the formatted text is formatted to itself, with the same caret, extracted value and
completeness. -/
theorem reapply_separated {format : Text} {w : Weights} (h : Mask.compile format w = .ok m)
    (hs : m.chain.Separated) (text : Text) (autocomplete : Bool) :
    ∃ r r', m.apply (.atEnd text) autocomplete = .ok r ∧
      m.apply (.atEnd r.formatted.chars) autocomplete = .ok r' ∧ r'.Agrees r := by
  have hreg := Mask.regular_of_compile h
  obtain ⟨events, reached, -, ht⟩ := hreg.feed (text.map (·, true))
  obtain ⟨steps, left, hf, htrail, hstop⟩ := (ht.regular hreg).finish autocomplete
  -- what was written and what was completed are kept, one after the other
  obtain ⟨reached', hk, hl⟩ := ht.keeps_of_separated hs
  obtain ⟨left', hk', hl'⟩ := htrail.keeps_of_lags hl (hs.suffix hk.suffix)
  exact reapply_of_keeps hreg ht hf hstop (hk.append hk') hl'

/-- A letter and a stop that find no place, and optional digits in front of a hyphen. -/
theorem reapply_separated_decimal :
    ∃ (m : Mask) (r r' : Result),
      Mask.compile ['[', '0', '9', ']', '-', '[', '0', ']', '.'] {} = .ok m ∧ m.chain.Separated ∧
      m.apply (.atEnd ['x', '1', '.', '5']) true = .ok r ∧
      m.apply (.atEnd r.formatted.chars) true = .ok r' ∧ r'.Agrees r := by
  have hcompile : Mask.compile ['[', '0', '9', ']', '-', '[', '0', ']', '.'] {} =
      .ok ⟨_, {}, [.value .numeric, .optional .numeric, .free '-', .value .numeric, .free '.',
        .endOfLine]⟩ := rfl
  have hend : Separated [.free '-', .value .numeric, .free '.', .endOfLine] :=
    (((separated_nil.cons rfl).cons rfl).cons rfl).cons rfl
  have hs : Separated [.value .numeric, .optional .numeric, .free '-', .value .numeric, .free '.',
      .endOfLine] := (hend.optional rfl (.free rfl)).cons rfl
  obtain ⟨r, r', hr, hr', hagrees⟩ := reapply_separated hcompile hs ['x', '1', '.', '5'] true
  exact ⟨_, r, r', hcompile, hs, hr, hr', hagrees⟩

end TextMask
