import TextMask.Proofs.Mask.CaretLaw

/-!
# Texts with the caret at the end

While a text is typed its caret stands at its end. All of the output then belongs before the caret,
so the result is known from the trace of the text and from what is completed behind it.

* `Chain.finish`: what is completed behind a text, if completion is asked for;
* `Regular.finish`, `Trail.finish`: completion stops at a slot that has nothing to write;
* `Regular.run_of_trace`: a run is a trace and what is completed behind it, wherever the caret stands;
* `Run.formatted_outcome`: the caret of the result is at the end again;
* `apply_of_trace`: the result of a text whose trace is known.
-/

namespace TextMask

open Chain

namespace Chain

/-- The literals that are completed behind a text, if completion is asked for, and the chain behind
them. -/
def finish (autocomplete : Bool) (chain : Chain) : Except RunError (List Step × Chain) :=
  if autocomplete then chain.trail else .ok ([], chain)

variable {chain left : Chain} {autocomplete : Bool} {steps : List Step}

theorem finish_false (chain : Chain) : chain.finish false = .ok ([], chain) := rfl

theorem Regular.finish (h : chain.Regular) (autocomplete : Bool) :
    ∃ steps left, chain.finish autocomplete = .ok (steps, left) ∧ Trail chain steps left ∧
      (autocomplete = true → left.autocomplete = .ok none) := by
  cases autocomplete with
  | false => exact ⟨[], chain, rfl, .stop chain, fun h => nomatch h⟩
  | true =>
    obtain ⟨steps, left, htrail, ht, hstop⟩ := h.trail
    exact ⟨steps, left, htrail, ht, fun _ => hstop⟩

/-- Nothing is completed if the next slot has nothing to write. -/
theorem finish_of_stop (h : autocomplete = true → chain.autocomplete = .ok none) :
    chain.finish autocomplete = .ok ([], chain) := by
  cases autocomplete with
  | false => rfl
  | true =>
    cases chain with
    | nil => rfl
    | cons s rest =>
      show Chain.trail (s :: rest) = _
      rw [trail, h rfl]
      rfl

/-- Completion follows the trail up to a slot that has nothing to write. -/
theorem Trail.finish (ht : Trail chain steps left) (h : chain.Regular)
    (hstop : left.autocomplete = .ok none) : chain.finish true = .ok (steps, left) := by
  induction ht with
  | stop chain => exact finish_of_stop fun _ => hstop
  | fixed d _ ih =>
    cases h with
    | fixed _ hr => exact trail_fixed d hr.ne_nil (ih hr hstop)
  | free d _ ih =>
    cases h with
    | free _ hr => exact trail_free d hr.ne_nil (ih hr hstop)

/-- **A run from its trace**: the offers of the text, and what is completed behind it if the caret
stands at the end. -/
theorem Regular.run_of_trace {t : CaretText} {events : List Event} {reached : Chain}
    (h : chain.Regular) (ht : Trace chain t.marked events reached)
    (hf : reached.finish (autocomplete && t.caretAtEnd) = .ok (steps, left)) :
    chain.run t autocomplete = .ok ⟨events, steps, left⟩ := by
  have hfeed := h.feed_of_trace ht
  cases ha : autocomplete && t.caretAtEnd with
  | true =>
    rw [ha] at hf
    exact run_completed ha hfeed hf
  | false =>
    rw [ha] at hf
    obtain ⟨rfl, rfl⟩ := Prod.mk.inj (Except.ok.inj hf)
    exact run_plain ha hfeed

end Chain

/-- If all events stand before the caret, the caret of the result is at its end. -/
theorem Run.formatted_outcome {r : Run} (hb : ∀ e ∈ r.events, e.beforeCaret = true) (w : Weights) :
    (r.outcome w).formatted = .atEnd r.written := by
  have hbefore : r.writtenBefore = r.written := by
    rw [Run.writtenBefore, Run.written, List.filter_eq_self.mpr hb]
  simp only [Run.outcome, CaretText.atEnd, hbefore]

variable {m : Mask} {text : Text} {autocomplete : Bool} {events : List Event} {reached left : Chain}
  {steps : List Step}

/-- **The result of a text with its caret at the end**, read off its trace. -/
theorem apply_of_trace (h : m.chain.Regular)
    (ht : Trace m.chain (text.map (·, true)) events reached)
    (hf : reached.finish autocomplete = .ok (steps, left)) :
    ∃ r, m.apply (.atEnd text) autocomplete = .ok r ∧
      m.chain.run (.atEnd text) autocomplete = .ok ⟨events, steps, left⟩ ∧
      r.formatted =
        .atEnd (events.flatMap Event.written ++ steps.flatMap fun s => s.insert.getD []) ∧
      r.extracted = events.flatMap Event.extracted ++ steps.flatMap (fun s => s.value.getD []) ∧
      r.complete = !left.any Slot.isMandatory := by
  have hend : (CaretText.atEnd text).caretAtEnd = true := beq_self_eq_true _
  have hmarked : Trace m.chain (CaretText.atEnd text).marked events reached := by
    rw [CaretText.marked_atEnd]
    exact ht
  have hrun : m.chain.run (.atEnd text) autocomplete = .ok ⟨events, steps, left⟩ := by
    refine h.run_of_trace hmarked ?_
    rw [hend, Bool.and_true]
    exact hf
  have hb : ∀ e ∈ events, e.beforeCaret = true := ht.beforeCaret_eq fun p hp => by
    obtain ⟨c, _, rfl⟩ := List.mem_map.mp hp
    rfl
  exact ⟨_, Mask.apply_eq h hrun, hrun, Run.formatted_outcome hb _, rfl, rfl⟩

end TextMask
