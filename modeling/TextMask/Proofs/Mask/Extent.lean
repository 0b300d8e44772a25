import TextMask.Proofs.Mask.Word

/-!
# Bounds of outputs

The counts of a summary bound what a mask can write: a word that leaves no mandatory slot has at
least one character for each of them, and without an ellipsis no word has more characters than the
chain has slots to write them.

* `Chain.count_cons`: counting slot by slot;
* `Word.count_le`, `Word.length_le`: a word against a count, by the slots that it passes;
* `Word.minTextLength_le` and its companions: the four bounds of a summary;
* `Regular.length_placeholder`: a placeholder has the greatest length of a text.
-/

namespace TextMask

namespace Chain

variable {chain left rest : Chain} {s : Slot} {pieces : List Piece} {kinds : List SlotKind}
  {f : Piece → Text}

/-! ### Counts -/

theorem count_cons (hs : (s.kind != .endOfLine) = true) :
    count kinds (s :: rest) =
      count kinds rest + if kinds.contains s.kind && !s.elliptical then 1 else 0 := by
  rw [count, slots_cons hs, List.countP_cons]
  rfl

/-- A character for a slot that is counted. -/
theorem length_cons_eq_count {c : Char} {text : Text} (hs : (s.kind != .endOfLine) = true)
    (hcounted : (kinds.contains s.kind && !s.elliptical) = true)
    (h : text.length = count kinds rest) : (c :: text).length = count kinds (s :: rest) := by
  rw [count_cons hs, hcounted, if_pos rfl, List.length_cons, h]

/-- No character for a slot that is not counted. -/
theorem length_eq_count {text : Text} (hs : (s.kind != .endOfLine) = true)
    (hcounted : (kinds.contains s.kind && !s.elliptical) = false)
    (h : text.length = count kinds rest) : text.length = count kinds (s :: rest) := by
  rw [count_cons hs, hcounted, if_neg Bool.false_ne_true, h]
  rfl

/-- The end of the line is counted in no summary. -/
theorem Regular.count_eq (h : chain.Regular) (hk : kinds.contains .endOfLine = false) :
    chain.count kinds = chain.countP fun s => kinds.contains s.kind && !s.elliptical := by
  induction h with
  | endOfLine =>
    rw [List.countP_singleton]
    show 0 = if kinds.contains .endOfLine && true then 1 else 0
    rw [hk]
    rfl
  | ellipsis k => rfl
  | fixed d _ ih => rw [count_cons rfl, List.countP_cons, ih]
  | free d _ ih => rw [count_cons rfl, List.countP_cons, ih]
  | value k _ ih => rw [count_cons rfl, List.countP_cons, ih]
  | optional k _ ih => rw [count_cons rfl, List.countP_cons, ih]

/-! ### Words against counts -/

/-- A slot that a least length counts is mandatory. -/
theorem isMandatory_of_counted (hend : kinds.contains .endOfLine = false)
    (hopt : kinds.contains .optional = false)
    (hs : (kinds.contains s.kind && !s.elliptical) = true) : s.isMandatory = true := by
  obtain ⟨hkind, he⟩ := Bool.and_eq_true_iff.mp hs
  rw [Slot.isMandatory, Slot.isLiteral, he]
  cases hk : s.kind with
  | fixed | free | value => rfl
  | optional => rw [hk, hopt] at hkind; cases hkind
  | endOfLine => rw [hk, hend] at hkind; cases hkind

/-- A word that leaves no mandatory slot has a character for each slot of kinds that are mandatory
and always contribute one. -/
theorem Word.count_le (hw : Word chain pieces left) (h : chain.Regular)
    (hleft : left.any Slot.isMandatory = false) (hend : kinds.contains .endOfLine = false)
    (hopt : kinds.contains .optional = false)
    (hf : ∀ {s t}, s.Yields t → kinds.contains s.kind = true → 1 ≤ (f ⟨s, t⟩).length) :
    chain.count kinds ≤ (pieces.flatMap f).length := by
  rw [h.count_eq hend]
  clear h
  induction hw with
  | stop chain =>
    refine Nat.le_of_eq (List.countP_eq_zero.mpr fun s hs hcounted => ?_)
    have hmandatory := isMandatory_of_counted hend hopt hcounted
    exact Bool.false_ne_true (hleft.symm.trans (List.any_eq_true.mpr ⟨s, hs, hmandatory⟩))
  | @pass s t rest left pieces hy _ ih =>
    have hrest := ih hleft
    rw [List.flatMap_cons, List.length_append, List.countP_cons]
    cases hs : kinds.contains s.kind with
    | true =>
      have hone := hf hy hs
      split <;> omega
    | false =>
      rw [Bool.false_and, if_neg Bool.false_ne_true]
      omega
  | again _ _ ih =>
    have hrest := ih hleft
    rw [List.flatMap_cons, List.length_append]
    omega

/-- Without an ellipsis, a word has no more characters than slots of kinds that contribute one. -/
theorem Word.length_le (hw : Word chain pieces left) (h : chain.Regular)
    (he : ∀ s ∈ chain, s.elliptical = false) (hk : kinds.contains .endOfLine = false)
    (hf : ∀ {s t}, s.Yields t → (f ⟨s, t⟩).length ≤ if kinds.contains s.kind then 1 else 0) :
    (pieces.flatMap f).length ≤ chain.count kinds := by
  rw [h.count_eq hk]
  clear h
  induction hw with
  | stop => exact Nat.zero_le _
  | @pass s t rest left pieces hy _ ih =>
    obtain ⟨hs, he⟩ := List.forall_mem_cons.mp he
    have hone := hf hy
    have hrest := ih he
    rw [List.flatMap_cons, List.length_append, List.countP_cons, hs, Bool.not_false, Bool.and_true]
    omega
  | again _ _ _ => cases he _ List.mem_cons_self

/-! ### The bounds of a summary -/

theorem Word.minTextLength_le (hw : Word chain pieces left) (h : chain.Regular)
    (hleft : left.any Slot.isMandatory = false) :
    chain.minTextLength ≤ (pieces.flatMap (·.text)).length :=
  hw.count_le h hleft rfl rfl fun hy hs => by
    cases hy with
    | fixed | free | value | optional => exact Nat.le_refl 1
    | skipped => cases hs

theorem Word.minValueLength_le (hw : Word chain pieces left) (h : chain.Regular)
    (hleft : left.any Slot.isMandatory = false) :
    chain.minValueLength ≤ (pieces.flatMap Piece.extracted).length :=
  hw.count_le h hleft rfl rfl fun hy hs => by
    cases hy with
    | fixed | value | optional => exact Nat.le_refl 1
    | free | skipped => cases hs

theorem Word.le_maxTextLength (hw : Word chain pieces left) (h : chain.Regular)
    (he : ∀ s ∈ chain, s.elliptical = false) :
    (pieces.flatMap (·.text)).length ≤ chain.maxTextLength :=
  hw.length_le h he rfl fun hy => by
    cases hy with
    | fixed | free | value | optional => exact Nat.le_refl 1
    | skipped => exact Nat.zero_le 1

theorem Word.le_maxValueLength (hw : Word chain pieces left) (h : chain.Regular)
    (he : ∀ s ∈ chain, s.elliptical = false) :
    (pieces.flatMap Piece.extracted).length ≤ chain.maxValueLength :=
  hw.length_le h he rfl fun hy => by
    cases hy with
    | fixed | value | optional => exact Nat.le_refl 1
    | free => exact Nat.le_refl 0
    | skipped => exact Nat.zero_le 1

/-! ### Placeholders -/

theorem placeholder_cons (hs : (s.kind != .endOfLine) = true) (he : s.elliptical = false) :
    placeholder (s :: rest) = s.filler ++ placeholder rest := by
  rw [placeholder, slots_cons hs, List.takeWhile_cons_of_pos (by rw [he]; rfl)]
  rfl

/-- **The length of a placeholder** is the greatest length of a text. -/
theorem Regular.length_placeholder (h : chain.Regular) :
    chain.placeholder.length = chain.maxTextLength := by
  induction h with
  | endOfLine => rfl
  | ellipsis k => rfl
  | fixed d _ ih | free d _ ih | value k _ ih | optional k _ ih =>
    rw [placeholder_cons rfl rfl, maxTextLength, count_cons rfl, List.length_append,
      ih]
    exact Nat.add_comm _ _

end Chain

end TextMask
