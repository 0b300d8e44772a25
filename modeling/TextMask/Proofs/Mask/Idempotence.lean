import TextMask.Proofs.Mask.Reapplying
import TextMask.Proofs.Mask.Sparse

/-!
# Which masks reproduce their complete texts

A complete text that a mask has written need not be formatted to itself: where an optional slot was
left empty in front of a character that it takes, the second run puts the character there. This
happens to some text of every mask that is not separated, and to none of a separated one.

* `Mask.KeepsComplete`: the masks that format their own complete texts to themselves;
* `reapply_complete_fails`: not every mask is one of them;
* `Regular.exists_overfull`: a sparse text on which a chain that is not separated writes more than
  the text;
* `reapply_complete_iff`: the masks that keep their complete texts are the separated ones, and every
  mask keeps what it wrote without gaps.
-/

namespace TextMask

open Chain

/-- Complete texts of the mask are formatted to themselves, with the same caret, extracted value and
completeness. -/
def Mask.KeepsComplete (m : Mask) : Prop :=
  ∀ text r, m.apply (.atEnd text) false = .ok r → r.complete = true →
    ∃ r', m.apply (.atEnd r.formatted.chars) false = .ok r' ∧ r'.Agrees r

/-- An optional digit in front of a literal digit is not filled at a letter, but it takes the
literal when the text is formatted again. -/
theorem reapply_complete_fails :
    ∃ (m : Mask) (r r' : Result), Mask.compile ['[', '9', ']', '5', '[', '0', ']'] {} = .ok m ∧
      m.apply (.atEnd ['x', '1']) false = .ok r ∧ r.complete = true ∧
      r.formatted.chars = ['5', '1'] ∧
      m.apply (.atEnd r.formatted.chars) false = .ok r' ∧ r'.formatted.chars = ['5', '5', '1'] ∧
      ¬ m.KeepsComplete := by
  refine ⟨⟨['[', '9', ']', '5', '[', '0', ']'], {},
      [.optional .numeric, .free '5', .value .numeric, .endOfLine]⟩,
    ⟨.atEnd ['5', '1'], ['1'], -2, true⟩, ⟨.atEnd ['5', '5', '1'], ['5', '1'], 1, true⟩,
    rfl, rfl, rfl, rfl, rfl, rfl, fun hkeeps => ?_⟩
  obtain ⟨r', hr', hagrees⟩ := hkeeps ['x', '1'] _ rfl rfl
  obtain rfl := Except.ok.inj hr'
  exact absurd (congrArg CaretText.caret hagrees.formatted) (by decide)

namespace Chain

variable {chain left rest : Chain} {s : Slot} {k : CharClass}

/-! ### Texts that are not kept -/

theorem Regular.exists_find (h : chain.Regular) :
    ∃ s, chain.find? (·.kind != .optional) = some s := by
  induction h with
  | endOfLine => exact ⟨_, rfl⟩
  | ellipsis k => exact ⟨_, rfl⟩
  | fixed d _ _ => exact ⟨_, rfl⟩
  | free d _ _ => exact ⟨_, rfl⟩
  | value k _ _ => exact ⟨_, rfl⟩
  | optional k _ ih => exact ih

/-- If the first slot that is not optional is not apart from a class, a sparse text begins with a
character of the class. -/
theorem Regular.exists_sparse_head (h : chain.Regular)
    (hs : chain.find? (·.kind != .optional) = some s) (ha : ¬ s.Apart k) :
    ∃ d text value, k.accepts d = true ∧ Sparse chain (d :: text) value := by
  induction h with
  | endOfLine =>
    obtain rfl := Option.some.inj hs
    exact absurd .endOfLine ha
  | ellipsis k' =>
    obtain rfl := Option.some.inj hs
    exact absurd (.ellipsis k') ha
  | fixed d hr _ =>
    obtain rfl := Option.some.inj hs
    obtain ⟨text, value, h⟩ := hr.exists_sparse
    exact ⟨d, text, _, eq_true_of_ne_false fun hd => ha (.fixed hd), .fixed d h⟩
  | free d hr _ =>
    obtain rfl := Option.some.inj hs
    obtain ⟨text, value, h⟩ := hr.exists_sparse
    exact ⟨d, text, _, eq_true_of_ne_false fun hd => ha (.free hd), .free d h⟩
  | value k' hr _ =>
    obtain rfl := Option.some.inj hs
    obtain ⟨text, value, h⟩ := hr.exists_sparse
    obtain ⟨d, hd⟩ := Classical.not_forall.mp fun hdisjoint => ha (.value hdisjoint)
    obtain ⟨hk, hk'⟩ := Classical.not_imp.mp hd
    exact ⟨d, text, _, hk, .value (eq_true_of_ne_false hk') h⟩
  | optional k' _ ih =>
    obtain ⟨d, text, value, hd, h⟩ := ih hs
    exact ⟨d, text, value, hd, .optional k' h⟩

/-- **Overfull texts.** If a chain is not separated, there is a sparse text on which each complete
run writes more than the text: some optional slot takes what a mandatory slot has written. -/
theorem Regular.exists_overfull (h : chain.Regular) (hs : ¬ chain.Separated) :
    ∃ text value, Sparse chain text value ∧
      ∀ b events left, Trace chain (text.map (·, b)) events left →
        left.any Slot.isMandatory = false →
        text.length < (events.flatMap Event.written).length := by
  induction h with
  | endOfLine => exact (hs (separated_nil.cons rfl)).elim
  | ellipsis k => exact (hs (separated_nil.cons rfl)).elim
  | @fixed d rest _ ih =>
    obtain ⟨text, value, hsparse, hover⟩ := ih fun h => hs (h.cons rfl)
    refine ⟨_, _, .fixed d hsparse, fun b events left ht hleft => ?_⟩
    obtain ⟨events, rfl, hrest⟩ := ht.of_take (.fixed d rest) (beq_self_eq_true d)
    exact Nat.succ_lt_succ (hover b events left hrest hleft)
  | @free d rest _ ih =>
    obtain ⟨text, value, hsparse, hover⟩ := ih fun h => hs (h.cons rfl)
    refine ⟨_, _, .free d hsparse, fun b events left ht hleft => ?_⟩
    obtain ⟨events, rfl, hrest⟩ := ht.of_take (.free d rest) (beq_self_eq_true d)
    exact Nat.succ_lt_succ (hover b events left hrest hleft)
  | @value k rest _ ih =>
    obtain ⟨text, value, hsparse, hover⟩ := ih fun h => hs (h.cons rfl)
    obtain ⟨c, hc⟩ := k.exists_accepts
    refine ⟨_, _, .value hc hsparse, fun b events left ht hleft => ?_⟩
    obtain ⟨events, rfl, hrest⟩ := ht.of_take (.value rest hc) rfl
    exact Nat.succ_lt_succ (hover b events left hrest hleft)
  | @optional k rest hr ih =>
    obtain ⟨s, hfind⟩ := hr.exists_find
    by_cases ha : s.Apart k
    · -- the slot that is not apart is one of those behind
      obtain ⟨text, value, hsparse, hover⟩ := ih fun h => hs (h.optional hfind ha)
      refine ⟨text, value, .optional k hsparse, fun b events left ht hleft => ?_⟩
      cases text with
      | nil =>
        cases ht
        exact absurd (hover b [] rest (.done rest) hleft) (Nat.lt_irrefl 0)
      | cons c text =>
        cases hc : k.accepts c with
        | true =>
          obtain ⟨events, rfl, hrest⟩ := ht.of_take (.optional rest hc) rfl
          exact Nat.lt_succ_of_le (hsparse.length_le hr hrest hleft)
        | false =>
          obtain ⟨events, rfl, hrest⟩ := ht.of_pass (.optionalSkip rest hc) rfl
          exact hover b events left hrest hleft
    · obtain ⟨d, text, value, hd, hsparse⟩ := hr.exists_sparse_head hfind ha
      refine ⟨_, _, .optional k hsparse, fun b events left ht hleft => ?_⟩
      obtain ⟨events, rfl, hrest⟩ := ht.of_take (.optional rest hd) rfl
      exact Nat.lt_succ_of_le (hsparse.length_le hr hrest hleft)

end Chain

/-! ### The masks that keep their complete texts -/

variable {m : Mask}

/-- A mask that is not separated does not keep some sparse text. -/
theorem Mask.KeepsComplete.separated (hkeeps : m.KeepsComplete) (h : m.chain.Regular) :
    m.chain.Separated := by
  refine Classical.byContradiction fun hs => ?_
  obtain ⟨text, value, hsparse, hover⟩ := h.exists_overfull hs
  obtain ⟨stray, hstray⟩ := CharClass.exists_stray
  obtain ⟨typed, events, left, ht, hwritten, -, hleft⟩ := hsparse.exists_typed hstray true
  obtain ⟨r, hr, -, hformatted, -, hcomplete⟩ := apply_of_trace h ht (finish_false left)
  rw [List.flatMap_nil, List.append_nil, hwritten] at hformatted
  rw [hleft] at hcomplete
  obtain ⟨r', hr', hagrees⟩ := hkeeps _ r hr hcomplete
  rw [hformatted] at hr'
  -- the second run is complete as well, so it writes more than the text
  obtain ⟨events', left', -, ht'⟩ := h.feed (text.map (·, true))
  obtain ⟨s, hs', -, hformatted', -, hcomplete'⟩ := apply_of_trace h ht' (finish_false left')
  obtain rfl := Except.ok.inj (hs'.symm.trans hr')
  rw [hagrees.complete, hcomplete, eq_comm, Bool.not_inj_iff] at hcomplete'
  have hlt := hover true events' left' ht' hcomplete'
  rw [List.flatMap_nil, List.append_nil] at hformatted'
  have hsame : events'.flatMap Event.written = text :=
    congrArg CaretText.chars (hformatted'.symm.trans (hagrees.formatted.trans hformatted))
  rw [hsame] at hlt
  exact absurd hlt (Nat.lt_irrefl _)

/-- A separated mask keeps its complete texts. -/
theorem Mask.KeepsComplete.of_separated (h : m.chain.Regular) (hs : m.chain.Separated) :
    m.KeepsComplete := by
  intro text r hr _
  obtain ⟨events, left, -, ht⟩ := h.feed (text.map (·, true))
  obtain ⟨left', hk, hl⟩ := ht.keeps_of_separated hs
  obtain ⟨s, s', hs, hs', hagrees⟩ :=
    reapply_of_keeps h ht (finish_false left) (fun ha => nomatch ha) (hk.append (.done left')) hl
  obtain rfl := Except.ok.inj (hs.symm.trans hr)
  exact ⟨s', hs', hagrees⟩

/-- **The masks that keep their complete texts** are the separated ones. Any mask keeps what it
wrote, complete or not, if it wrote nothing behind an optional slot that it had left empty. -/
theorem reapply_complete_iff {format : Text} {w : Weights} (h : Mask.compile format w = .ok m) :
    (m.KeepsComplete ↔ m.chain.Separated) ∧
    ∀ text run, m.chain.run (.atEnd text) false = .ok run → Gapless run.events →
      ∃ r r', m.apply (.atEnd text) false = .ok r ∧
        m.apply (.atEnd r.formatted.chars) false = .ok r' ∧ r'.Agrees r := by
  have hreg := Mask.regular_of_compile h
  refine ⟨⟨fun hkeeps => hkeeps.separated hreg, .of_separated hreg⟩, fun text run hrun hg => ?_⟩
  obtain ⟨events, left, -, ht⟩ := hreg.feed (text.map (·, true))
  obtain ⟨-, -, hrun', -⟩ := apply_of_trace hreg ht (finish_false left)
  obtain rfl := Except.ok.inj (hrun'.symm.trans hrun)
  obtain ⟨left', hk, hl⟩ := ht.keeps_of_gapless hg
  exact reapply_of_keeps hreg ht (finish_false left) (fun ha => nomatch ha)
    (hk.append (.done left')) hl

/-- A hyphen keeps an optional digit apart from the next one; and a mask that is not separated keeps
a text in which the optional digit is filled. -/
theorem reapply_complete_iff_decimal :
    (∃ m : Mask, Mask.compile ['[', '0', '9', ']', '-', '[', '0', ']'] {} = .ok m ∧
      m.KeepsComplete) ∧
    ∃ (m : Mask) (run : Run) (r r' : Result),
      Mask.compile ['[', '9', ']', '5', '[', '0', ']'] {} = .ok m ∧
      m.chain.run (.atEnd ['3', 'x', '1']) false = .ok run ∧ Gapless run.events ∧
      m.apply (.atEnd ['3', 'x', '1']) false = .ok r ∧
      m.apply (.atEnd r.formatted.chars) false = .ok r' ∧ r'.Agrees r := by
  have hcompile : Mask.compile ['[', '0', '9', ']', '-', '[', '0', ']'] {} =
      .ok ⟨_, {}, [.value .numeric, .optional .numeric, .free '-', .value .numeric,
        .endOfLine]⟩ := rfl
  have hend : Separated [.free '-', .value .numeric, .endOfLine] :=
    ((separated_nil.cons rfl).cons rfl).cons rfl
  have hs : Separated [.value .numeric, .optional .numeric, .free '-', .value .numeric,
      .endOfLine] := (hend.optional rfl (.free rfl)).cons rfl
  have hcompile' : Mask.compile ['[', '9', ']', '5', '[', '0', ']'] {} =
      .ok ⟨_, {}, [.optional .numeric, .free '5', .value .numeric, .endOfLine]⟩ := rfl
  obtain ⟨r, r', hr, hr', hagrees⟩ :=
    (reapply_complete_iff hcompile').2 ['3', 'x', '1'] _ rfl (by decide)
  exact ⟨⟨_, hcompile, (reapply_complete_iff hcompile).1.mpr hs⟩, _, _, r, r', hcompile', rfl,
    by decide, hr, hr', hagrees⟩

end TextMask
