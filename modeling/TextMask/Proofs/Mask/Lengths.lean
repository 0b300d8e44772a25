import Mathlib.Order.Bounds.Basic
import TextMask.Proofs.Mask.Reapplying
import TextMask.Proofs.Mask.Sparse

/-!
# The lengths of a summary are exact

The four lengths of a summary are counted slot by slot, without any input. They are the bounds of
what the mask makes of texts, and the bounds are reached.

* `Mask.Gives`: the results that a mask can give;
* `Mask.Gives.word`: every result is made of the pieces of a word;
* `exists_sparse_result`, `exists_full_result`, `exists_long_result`: results of extreme lengths;
* `lengths_exact`: the least and the greatest lengths of texts and of values.
-/

namespace TextMask

open Chain

/-- The mask gives the result for some text, some caret and some setting of completion. -/
def Mask.Gives (m : Mask) (r : Result) : Prop := ∃ t autocomplete, m.apply t autocomplete = .ok r

namespace Mask

variable {m : Mask} {r : Result} {k : CharClass}

/-! ### Bounds -/

/-- Every result is made of the pieces of a word, and leaves no mandatory slot if it is complete. -/
theorem Gives.word (hr : m.Gives r) (h : m.chain.Regular) :
    ∃ pieces left, Word m.chain pieces left ∧
      pieces.flatMap (·.text) = r.formatted.chars ∧
      pieces.flatMap Piece.extracted = r.extracted ∧
      (r.complete = true → left.any Slot.isMandatory = false) := by
  obtain ⟨t, autocomplete, hr⟩ := hr
  obtain ⟨run, -, hrun, -⟩ := h.run t autocomplete
  obtain rfl := Except.ok.inj ((Mask.apply_eq h hrun).symm.trans hr)
  obtain ⟨hw, hwritten, hextracted⟩ := h.word hrun
  refine ⟨_, run.left, hw, hwritten, hextracted, fun hcomplete => ?_⟩
  have hfilled : (!run.left.any Slot.isMandatory) = true := hcomplete
  rwa [Bool.not_eq_true'] at hfilled

theorem Gives.minTextLength_le (hr : m.Gives r) (h : m.chain.Regular) (hc : r.complete = true) :
    m.chain.minTextLength ≤ r.formatted.chars.length := by
  obtain ⟨pieces, left, hw, htext, -, hleft⟩ := hr.word h
  rw [← htext]
  exact hw.minTextLength_le h (hleft hc)

theorem Gives.minValueLength_le (hr : m.Gives r) (h : m.chain.Regular) (hc : r.complete = true) :
    m.chain.minValueLength ≤ r.extracted.length := by
  obtain ⟨pieces, left, hw, -, hvalue, hleft⟩ := hr.word h
  rw [← hvalue]
  exact hw.minValueLength_le h (hleft hc)

theorem Gives.le_maxTextLength (hr : m.Gives r) (h : m.chain.Regular)
    (he : ∀ s ∈ m.chain, s.elliptical = false) :
    r.formatted.chars.length ≤ m.chain.maxTextLength := by
  obtain ⟨pieces, left, hw, htext, -⟩ := hr.word h
  rw [← htext]
  exact hw.le_maxTextLength h he

theorem Gives.le_maxValueLength (hr : m.Gives r) (h : m.chain.Regular)
    (he : ∀ s ∈ m.chain, s.elliptical = false) :
    r.extracted.length ≤ m.chain.maxValueLength := by
  obtain ⟨pieces, left, hw, -, hvalue, -⟩ := hr.word h
  rw [← hvalue]
  exact hw.le_maxValueLength h he

/-! ### The bounds are reached -/

/-- A complete result whose text and value have their least lengths. -/
theorem exists_sparse_result (h : m.chain.Regular) :
    ∃ r, m.Gives r ∧ r.complete = true ∧ r.formatted.chars.length = m.chain.minTextLength ∧
      r.extracted.length = m.chain.minValueLength := by
  obtain ⟨text, value, hs⟩ := h.exists_sparse
  obtain ⟨stray, hstray⟩ := CharClass.exists_stray
  obtain ⟨typed, events, left, ht, rfl, rfl, hleft⟩ := hs.exists_typed hstray true
  obtain ⟨r, hr, -, hformatted, hextracted, hcomplete⟩ := apply_of_trace h ht (finish_false left)
  rw [List.flatMap_nil, List.append_nil] at hformatted hextracted
  refine ⟨r, ⟨_, _, hr⟩, ?_, ?_, ?_⟩
  · rw [hcomplete, hleft]
    rfl
  · rw [hformatted]
    exact hs.length_text
  · rw [hextracted]
    exact hs.length_value

/-- A result whose text and value have their greatest lengths. -/
theorem exists_full_result (h : m.chain.Regular) :
    ∃ r, m.Gives r ∧ r.formatted.chars.length = m.chain.maxTextLength ∧
      r.extracted.length = m.chain.maxValueLength := by
  obtain ⟨text, value, s, hk, htext, hvalue⟩ := h.exists_full
  obtain ⟨r, hr, hformatted, hextracted, -⟩ := apply_of_keeps h hk false fun ha => nomatch ha
  refine ⟨r, ⟨_, _, hr⟩, ?_, ?_⟩
  · rw [hformatted]
    exact htext
  · rw [hextracted]
    exact hvalue

/-- Results of any length, if the chain ends in an ellipsis. -/
theorem exists_long_result (h : m.chain.Regular) (hk : m.chain.getLast? = some (.ellipsis k))
    (n : Nat) : ∃ r, m.Gives r ∧ n ≤ r.formatted.chars.length ∧ n ≤ r.extracted.length := by
  obtain ⟨text, value, hk, htext, hvalue⟩ := h.exists_long hk n
  obtain ⟨r, hr, hformatted, hextracted, -⟩ := apply_of_keeps h hk false fun ha => nomatch ha
  refine ⟨r, ⟨_, _, hr⟩, ?_, ?_⟩
  · rw [hformatted]
    exact htext
  · rw [hextracted]
    exact hvalue

end Mask

/-- **The lengths of a summary are exact.** The least lengths are those of complete results. If no
slot is an ellipsis, the greatest lengths are those of all results, complete or not; if the chain
ends in an ellipsis, results have any length. A placeholder has the greatest length of a text. -/
theorem lengths_exact {m : Mask} {format : Text} {w : Weights}
    (h : Mask.compile format w = .ok m) :
    IsLeast {n | ∃ r, m.Gives r ∧ r.complete = true ∧ r.formatted.chars.length = n}
      m.chain.minTextLength ∧
    IsLeast {n | ∃ r, m.Gives r ∧ r.complete = true ∧ r.extracted.length = n}
      m.chain.minValueLength ∧
    ((∀ s ∈ m.chain, s.elliptical = false) →
      IsGreatest {n | ∃ r, m.Gives r ∧ r.formatted.chars.length = n} m.chain.maxTextLength ∧
      IsGreatest {n | ∃ r, m.Gives r ∧ r.extracted.length = n} m.chain.maxValueLength) ∧
    (∀ k, m.chain.getLast? = some (.ellipsis k) →
      ¬ BddAbove {n | ∃ r, m.Gives r ∧ r.formatted.chars.length = n} ∧
      ¬ BddAbove {n | ∃ r, m.Gives r ∧ r.extracted.length = n}) ∧
    m.chain.placeholder.length = m.chain.maxTextLength := by
  have hreg := Mask.regular_of_compile h
  obtain ⟨least, hleast, hcomplete, hminText, hminValue⟩ := Mask.exists_sparse_result hreg
  obtain ⟨greatest, hgreatest, hmaxText, hmaxValue⟩ := Mask.exists_full_result hreg
  refine ⟨⟨⟨least, hleast, hcomplete, hminText⟩, ?_⟩, ⟨⟨least, hleast, hcomplete, hminValue⟩, ?_⟩,
    fun he => ⟨⟨⟨greatest, hgreatest, hmaxText⟩, ?_⟩, ⟨⟨greatest, hgreatest, hmaxValue⟩, ?_⟩⟩,
    fun k hk => ⟨?_, ?_⟩, hreg.length_placeholder⟩
  · rintro n ⟨r, hr, hc, rfl⟩
    exact hr.minTextLength_le hreg hc
  · rintro n ⟨r, hr, hc, rfl⟩
    exact hr.minValueLength_le hreg hc
  · rintro n ⟨r, hr, rfl⟩
    exact hr.le_maxTextLength hreg he
  · rintro n ⟨r, hr, rfl⟩
    exact hr.le_maxValueLength hreg he
  · rintro ⟨n, hn⟩
    obtain ⟨r, hr, hlong, -⟩ := Mask.exists_long_result hreg hk (n + 1)
    exact Nat.not_succ_le_self n (hlong.trans (hn ⟨r, hr, rfl⟩))
  · rintro ⟨n, hn⟩
    obtain ⟨r, hr, -, hlong⟩ := Mask.exists_long_result hreg hk (n + 1)
    exact Nat.not_succ_le_self n (hlong.trans (hn ⟨r, hr, rfl⟩))

/-- An optional digit in front of a literal digit, and an ellipsis. -/
theorem lengths_exact_decimal :
    (∃ m : Mask, Mask.compile ['[', '9', ']', '5', '[', '0', ']'] {} = .ok m ∧
      IsLeast {n | ∃ r, m.Gives r ∧ r.complete = true ∧ r.extracted.length = n} 1 ∧
      IsGreatest {n | ∃ r, m.Gives r ∧ r.formatted.chars.length = n} 3) ∧
    ∃ m : Mask, Mask.compile ['\x7b', '+', '\x7d', '[', '0', '…', ']'] {} = .ok m ∧
      IsLeast {n | ∃ r, m.Gives r ∧ r.complete = true ∧ r.formatted.chars.length = n} 2 ∧
      ¬ BddAbove {n | ∃ r, m.Gives r ∧ r.extracted.length = n} := by
  have hcompile : Mask.compile ['[', '9', ']', '5', '[', '0', ']'] {} =
      .ok ⟨_, {}, [.optional .numeric, .free '5', .value .numeric, .endOfLine]⟩ := rfl
  have hcompile' : Mask.compile ['\x7b', '+', '\x7d', '[', '0', '…', ']'] {} =
      .ok ⟨_, {}, [.fixed '+', .value .numeric, .ellipsis .numeric]⟩ := rfl
  obtain ⟨-, hminValue, hmax, -⟩ := lengths_exact hcompile
  obtain ⟨hminText, -, -, hunbounded, -⟩ := lengths_exact hcompile'
  exact ⟨⟨_, hcompile, hminValue, (hmax (by decide)).1⟩, _, hcompile', hminText,
    (hunbounded .numeric rfl).2⟩

end TextMask
