import TextMask.Proofs.Mask.Reapplying

/-!
# Typing and pasting

A text can reach a mask at once or piece by piece, each piece put behind what the mask has made of
the pieces before it. If the mask has no optional slot, this makes no difference: a run over the
formatted text stops at the same slot as the run over the text that was typed.

* `Mask.typeOn`: pieces that are typed one after the other;
* `apply_append`: formatting the front of a text first;
* `typing_eq_pasting`: typing comes to the same as pasting.
-/

namespace TextMask

open Chain

namespace Mask

/-- Types chunks one after the other. Each is put behind the text that is shown, and the mask shows
what it makes of the whole. -/
def typeOn (m : Mask) (shown : Text) : Text → List Text → Except RunError Result
  | chunk, [] => m.apply (.atEnd (shown ++ chunk)) false
  | chunk, next :: rest => do
    let r ← m.apply (.atEnd (shown ++ chunk)) false
    m.typeOn r.formatted.chars next rest

end Mask

namespace Chain

variable {chain slow fast : Chain}

theorem separated_of_no_optional (h : ∀ s ∈ chain, s.kind ≠ .optional) : chain.Separated :=
  fun _ _ hs => absurd rfl (h _ (hs.subset List.mem_cons_self))

theorem Lags.eq_of_no_optional (hl : Lags slow fast) (h : ∀ s ∈ slow, s.kind ≠ .optional) :
    slow = fast := by
  cases hl with
  | refl => rfl
  | optional k _ => exact absurd rfl (h _ List.mem_cons_self)

end Chain

variable {m : Mask}

/-- **Formatting the front of a text first** makes no difference without optional slots: the
formatted front leads to the slot that the front has led to. -/
theorem apply_append (h : m.chain.Regular) (hno : ∀ s ∈ m.chain, s.kind ≠ .optional)
    {front : Text} {shown : Result} (hshown : m.apply (.atEnd front) false = .ok shown)
    (chunk : Text) :
    ∃ r r', m.apply (.atEnd (shown.formatted.chars ++ chunk)) false = .ok r ∧
      m.apply (.atEnd (front ++ chunk)) false = .ok r' ∧ r.Agrees r' := by
  obtain ⟨events, reached, -, ht⟩ := h.feed (front.map (·, true))
  obtain ⟨events', left, -, ht'⟩ := (ht.regular h).feed (chunk.map (·, true))
  obtain ⟨s, hs, -, hformatted, -⟩ := apply_of_trace h ht (finish_false reached)
  obtain rfl := Except.ok.inj (hs.symm.trans hshown)
  rw [List.flatMap_nil, List.append_nil] at hformatted
  -- the formatted front leads to the same slot
  obtain ⟨reached', hk, hl⟩ := ht.keeps_of_separated (separated_of_no_optional hno)
  obtain rfl := hl.eq_of_no_optional fun s hs => hno s (hk.suffix.subset hs)
  obtain ⟨again, ht'', hwritten, hextracted⟩ := hk.trace true
  have htyped := ht''.append ht'
  have hpasted := ht.append ht'
  rw [← List.map_append] at htyped hpasted
  obtain ⟨r, hr, -, hrf, hre, hrc⟩ := apply_of_trace h htyped (finish_false left)
  obtain ⟨r', hr', -, hrf', hre', hrc'⟩ := apply_of_trace h hpasted (finish_false left)
  refine ⟨r, r', ?_, hr', ?_, ?_, ?_⟩
  · rw [hformatted]
    exact hr
  · rw [hrf, hrf', List.flatMap_append, List.flatMap_append, hwritten]
  · rw [hre, hre', List.flatMap_append, List.flatMap_append, hextracted]
  · rw [hrc, hrc']

/-- Typing on behind a front that was formatted. -/
theorem typeOn_agrees (h : m.chain.Regular) (hno : ∀ s ∈ m.chain, s.kind ≠ .optional)
    {front : Text} {shown : Result} (hshown : m.apply (.atEnd front) false = .ok shown)
    (chunk : Text) (chunks : List Text) :
    ∃ r r', m.typeOn shown.formatted.chars chunk chunks = .ok r ∧
      m.apply (.atEnd (front ++ (chunk :: chunks).flatten)) false = .ok r' ∧ r.Agrees r' := by
  induction chunks generalizing front shown chunk with
  | nil =>
    rw [List.flatten_cons, List.flatten_nil, List.append_nil]
    exact apply_append h hno hshown chunk
  | cons next rest ih =>
    obtain ⟨s, s', hs, hs', hagrees⟩ := apply_append h hno hshown chunk
    obtain ⟨r, r', hr, hr', hagrees'⟩ := ih hs' next
    refine ⟨r, r', ?_, ?_, hagrees'⟩
    · rw [Mask.typeOn, hs, ← hr, ← hagrees.formatted]
      rfl
    · rw [List.flatten_cons, ← List.append_assoc]
      exact hr'

/-- **Typing equals pasting.** Without optional slots, typing a text in chunks, however it is cut,
gives the formatted text, the caret, the extracted value and the completeness that the whole text
gives at once. -/
theorem typing_eq_pasting {format : Text} {w : Weights} (h : Mask.compile format w = .ok m)
    (hno : ∀ s ∈ m.chain, s.kind ≠ .optional) (chunk : Text) (chunks : List Text) :
    ∃ r r', m.typeOn [] chunk chunks = .ok r ∧
      m.apply (.atEnd (chunk :: chunks).flatten) false = .ok r' ∧ r.Agrees r' := by
  have hreg := Mask.regular_of_compile h
  obtain ⟨shown, hshown, hempty, -⟩ :=
    apply_of_keeps hreg (.done m.chain) false fun ha => nomatch ha
  have htyped := typeOn_agrees hreg hno hshown chunk chunks
  rw [hempty, List.nil_append] at htyped
  exact htyped

/-- A date that is typed in three chunks, of which the last is not needed any more. -/
theorem typing_eq_pasting_decimal :
    ∃ (m : Mask) (r r' : Result),
      Mask.compile ['[', '0', ']', '\x7b', '.', '\x7d', '[', '0', ']', '-'] {} = .ok m ∧
      (∀ s ∈ m.chain, s.kind ≠ .optional) ∧
      m.typeOn [] ['x', '1'] [[], ['-', '5', '7']] = .ok r ∧
      m.apply (.atEnd ['x', '1', '-', '5', '7']) false = .ok r' ∧ r.Agrees r' := by
  have hcompile : Mask.compile ['[', '0', ']', '\x7b', '.', '\x7d', '[', '0', ']', '-'] {} =
      .ok ⟨_, {}, [.value .numeric, .fixed '.', .value .numeric, .free '-', .endOfLine]⟩ := rfl
  have hno : ∀ s ∈ [Slot.value .numeric, .fixed '.', .value .numeric, .free '-', .endOfLine],
      s.kind ≠ .optional := by decide
  obtain ⟨r, r', hr, hr', hagrees⟩ :=
    typing_eq_pasting hcompile hno ['x', '1'] [[], ['-', '5', '7']]
  exact ⟨_, r, r', hcompile, hno, hr, hr', hagrees⟩

end TextMask
