import TextMask.Proofs.Mask.AtEnd

/-!
# What completion adds

Completion writes the literals that come next, as many as stand in a row, and nothing else. It takes
place only if the caret stands at the end of the text, and a complete text leaves it nothing to do.

* `Trail.literals`: what is completed are the literals that the chain begins with;
* `Regular.run_with_completion`: the run with completion is the run without it, and a trail;
* `completion_appends_literals`: the results of a compiled mask with completion and without it.
-/

namespace TextMask

open Chain

namespace Chain

variable {chain left : Chain} {steps : List Step}

/-- **What is completed** are the literals that the chain begins with, as many as stand in a row. All
of them are written, and the fixed ones among them are extracted. -/
theorem Trail.literals (ht : Trail chain steps left) (h : chain.Regular)
    (hstop : left.autocomplete = .ok none) :
    left = chain.dropWhile Slot.isLiteral ∧
      (steps.flatMap fun s => s.insert.getD []) =
        (chain.takeWhile Slot.isLiteral).flatMap Slot.literalText ∧
      (steps.flatMap fun s => s.value.getD []) =
        ((chain.takeWhile Slot.isLiteral).filter (·.kind == .fixed)).flatMap Slot.literalText := by
  induction ht with
  | stop chain =>
    have hnone := h.autocomplete_eq_none_iff.mp hstop
    have hsplit := List.takeWhile_append_dropWhile (p := Slot.isLiteral) (l := chain)
    rw [hnone, List.nil_append] at hsplit
    rw [hnone, hsplit]
    exact ⟨rfl, rfl, rfl⟩
  | fixed d _ ih =>
    cases h with
    | fixed _ hr =>
      obtain ⟨hleft, hwritten, hextracted⟩ := ih hr hstop
      exact ⟨hleft, congrArg (d :: ·) hwritten, congrArg (d :: ·) hextracted⟩
  | free d _ ih =>
    cases h with
    | free _ hr =>
      obtain ⟨hleft, hwritten, hextracted⟩ := ih hr hstop
      exact ⟨hleft, congrArg (d :: ·) hwritten, hextracted⟩

/-- **A run with completion** makes the same offers as the run without it, and completes what comes
next if the caret stands at the end. -/
theorem Regular.run_with_completion (h : chain.Regular) (t : CaretText) :
    ∃ events reached steps left, Trace chain t.marked events reached ∧
      reached.finish t.caretAtEnd = .ok (steps, left) ∧
      chain.run t false = .ok ⟨events, [], reached⟩ ∧
      chain.run t true = .ok ⟨events, steps, left⟩ := by
  obtain ⟨events, reached, -, ht⟩ := h.feed t.marked
  obtain ⟨steps, left, hf, -⟩ := (ht.regular h).finish t.caretAtEnd
  refine ⟨events, reached, steps, left, ht, hf, h.run_of_trace ht ?_, h.run_of_trace ht ?_⟩
  · rw [Bool.false_and]
    exact finish_false reached
  · rw [Bool.true_and]
    exact hf

end Chain

/-- **Completion appends literals.** A mask is applied to a text with completion and without it, and
the plain run leaves some chain. The affinity is the same. If the caret does not stand at the end of
the text, the results are the same. If it does, the formatted text is the plain one with the literals
behind it that the chain begins with, as many as stand in a row, and the caret is at its end; the
fixed ones among them are added to the extracted value; and whether the result is complete is decided
by what stands behind them. A complete result is left as it is. -/
theorem completion_appends_literals {m : Mask} {format : Text} {w : Weights}
    (h : Mask.compile format w = .ok m) (t : CaretText) :
    ∃ run plain completed, m.chain.run t false = .ok run ∧
      m.apply t false = .ok plain ∧ m.apply t true = .ok completed ∧
      completed.affinity = plain.affinity ∧
      (t.caret ≠ t.chars.length → completed = plain) ∧
      (t.caret = t.chars.length →
        completed.formatted = .atEnd (plain.formatted.chars ++
          (run.left.takeWhile Slot.isLiteral).flatMap Slot.literalText) ∧
        completed.extracted = plain.extracted ++
          ((run.left.takeWhile Slot.isLiteral).filter (·.kind == .fixed)).flatMap
            Slot.literalText ∧
        Chain.isFilled (run.left.dropWhile Slot.isLiteral) = .ok completed.complete) ∧
      (plain.complete = true → completed = plain) := by
  have hreg := Mask.regular_of_compile h
  obtain ⟨events, reached, steps, left, ht, hf, hplain, hcompleted⟩ := hreg.run_with_completion t
  have hreached := ht.regular hreg
  -- without anything to complete, the two runs are one
  have hsame (hnone : reached.finish t.caretAtEnd = .ok ([], reached)) :
      (⟨events, steps, left⟩ : Run) = ⟨events, [], reached⟩ := by
    obtain ⟨rfl, rfl⟩ := Prod.mk.inj (Except.ok.inj (hf.symm.trans hnone))
    rfl
  refine ⟨_, _, _, hplain, Mask.apply_eq hreg hplain, Mask.apply_eq hreg hcompleted, rfl, ?_, ?_,
    ?_⟩
  · intro hcaret
    have hinside : t.caretAtEnd = false := beq_eq_false_iff_ne.mpr hcaret
    rw [hsame (by rw [hinside]; exact finish_false reached)]
  · intro hcaret
    have hend : t.caretAtEnd = true := beq_iff_eq.mpr hcaret
    rw [hend] at hf
    obtain ⟨_, _, htrail, hliterals, hstop⟩ := hreached.finish true
    obtain ⟨rfl, rfl⟩ := Prod.mk.inj (Except.ok.inj (htrail.symm.trans hf))
    obtain ⟨hleft, hwritten, hextracted⟩ := hliterals.literals hreached (hstop rfl)
    have hbefore : ∀ e ∈ events, e.beforeCaret = true := by
      rw [← CaretText.front_of_caretAtEnd hend, CaretText.front, CaretText.marked_atEnd] at ht
      exact ht.beforeCaret_eq (List.forall_mem_map.mpr fun _ _ => rfl)
    refine ⟨?_, ?_, ?_⟩
    · rw [Run.formatted_outcome hbefore]
      simp [Run.outcome, Run.written, hwritten]
    · simp [Run.outcome, Run.extracted, hextracted]
    · rw [← hleft]
      exact (hliterals.regular hreached).isFilled_eq
  · intro hcomplete
    have hfilled : reached.any Slot.isMandatory = false := Bool.not_eq_true' _ |>.mp hcomplete
    have hstop := hreached.autocomplete_of_filled hfilled
    rw [hsame (finish_of_stop fun _ => hstop)]

/-- A stop and a hyphen are completed behind a digit, up to an optional digit; with the caret in
front of the digit nothing is completed. -/
theorem completion_appends_literals_decimal :
    ∃ (m : Mask) (run : Run) (plain completed before : Result),
      Mask.compile ['[', '0', ']', '\x7b', '.', '\x7d', '-', '[', '9', ']'] {} = .ok m ∧
      m.chain.run (.atEnd ['1']) false = .ok run ∧
      run.left = [.fixed '.', .free '-', .optional .numeric, .endOfLine] ∧
      m.apply (.atEnd ['1']) false = .ok plain ∧ m.apply (.atEnd ['1']) true = .ok completed ∧
      completed.formatted = .atEnd (plain.formatted.chars ++ ['.', '-']) ∧
      completed.extracted = plain.extracted ++ ['.'] ∧ completed.complete = true ∧
      m.apply ⟨['1'], 0, by decide⟩ true = .ok before ∧ before.formatted.chars = ['1'] := by
  have hcompile : Mask.compile ['[', '0', ']', '\x7b', '.', '\x7d', '-', '[', '9', ']'] {} =
      .ok ⟨_, {}, [.value .numeric, .fixed '.', .free '-', .optional .numeric, .endOfLine]⟩ := rfl
  obtain ⟨run, plain, completed, hrun, hplain, hcompleted, -, -, hend, -⟩ :=
    completion_appends_literals hcompile (.atEnd ['1'])
  obtain ⟨_, plain', before, -, hplain', hbefore, -, hinside, -⟩ :=
    completion_appends_literals hcompile ⟨['1'], 0, by decide⟩
  obtain rfl := Except.ok.inj hrun
  obtain rfl := Except.ok.inj hplain'
  obtain rfl := hinside (by decide)
  obtain ⟨hformatted, hextracted, hcomplete⟩ := hend rfl
  exact ⟨_, _, plain, completed, _, hcompile, rfl, rfl, hplain, hcompleted, hformatted, hextracted,
    (Except.ok.inj hcomplete).symm, hbefore, rfl⟩

end TextMask
