import TextMask.Proofs.Pattern.Groups
import TextMask.Proofs.Pattern.NormalOrder

/-!
# Symbols out of order

A run of one family is in normal order just if no optional symbol stands directly in front of a
mandatory one. So a value group without ellipses keeps its order just if that happens nowhere in it:
between two runs it cannot happen, since their families are not the same.

* `filter_append_filter_eq_self`: when it changes nothing to move some elements to the front;
* `Entry.Inverted`: an optional symbol and a mandatory one of the same family;
* `FamilyRun.inOrder_eq_self`: the runs that are in normal order;
* `ValueGroup.isChain_entries`: inverted symbols of a value group are inside of a run;
* `Entry.isChain_iff_text`: inverted symbols can be seen in the text of a value group.
-/

namespace TextMask

/-- **Nothing moves** when some elements are put in front of the others, just if none of them stands
directly behind another one. -/
theorem filter_append_filter_eq_self {α : Type} {p : α → Bool} {l : List α} :
    l.filter p ++ l.filter (!p ·) = l ↔ l.IsChain fun a b => p b = true → p a = true := by
  have : Trans (fun a b => p b = true → p a = true) (fun a b => p b = true → p a = true)
      (fun a b => p b = true → p a = true) := ⟨fun hab hbc hc => hab (hbc hc)⟩
  rw [List.isChain_iff_pairwise]
  induction l with
  | nil => simp
  | cons a l ih =>
    by_cases ha : p a = true
    · simp [ha, ih]
    · -- the first element is one of the others, so it stays in front only if all elements are
      have hnone : (∀ b ∈ l, p b = true → p a = true) ↔ l.filter p = [] := by
        simp [ha]
      rw [List.pairwise_cons, hnone, List.filter_cons_of_neg ha,
        List.filter_cons_of_pos (by simpa using ha)]
      constructor
      · intro h
        have hfilter : l.filter p = [] := by
          cases hf : l.filter p with
          | nil => rfl
          | cons b bs =>
            rw [hf, List.cons_append] at h
            have hb : b ∈ l.filter p := by
              rw [hf]
              exact List.mem_cons_self
            rw [(List.cons.inj h).1] at hb
            exact absurd (List.mem_filter.mp hb).2 ha
        rw [hfilter] at h ih
        exact ⟨hfilter, ih.mp (List.cons.inj h).2⟩
      · intro h
        rw [h.1, List.nil_append] at ih
        rw [h.1, List.nil_append, ih.mpr h.2]

namespace Entry

/-- An optional symbol, and a mandatory one of the same family. -/
def Inverted (e e' : Entry) : Prop := ∃ k, e = .symbol ⟨k, true⟩ ∧ e' = .symbol ⟨k, false⟩

/-- **Inverted symbols in a text.** No symbols that stand side by side are inverted just if the text
has nowhere an optional symbol directly in front of a mandatory one of its family. -/
theorem isChain_iff_text {es : List Entry} :
    es.IsChain (¬ Inverted · ·) ↔
      ∀ k : CharClass, ¬ [k.optionalSymbol, k.mandatorySymbol] <:+: es.map toChar := by
  constructor
  · intro h k hk
    have htext : (es.map toChar).IsChain fun c c' =>
        ¬ ∃ k : CharClass, c = k.optionalSymbol ∧ c' = k.mandatorySymbol := by
      refine (List.isChain_map _).mpr (h.imp fun e e' hnot => ?_)
      rintro ⟨k, hoptional, hmandatory⟩
      exact hnot ⟨k, glyph_injective (congrArg Glyph.plain hoptional),
        glyph_injective (congrArg Glyph.plain hmandatory)⟩
    have hpair := List.IsChain.infix htext hk
    exact List.isChain_pair.mp hpair ⟨k, rfl, rfl⟩
  · intro h
    refine (List.isChain_isInfix es).imp fun e e' hpair => ?_
    rintro ⟨k, rfl, rfl⟩
    exact h k (hpair.map toChar)

end Entry

namespace FamilyRun

/-- The entries of a run without ellipses are symbols of its family. -/
theorem eq_symbol {r : FamilyRun} (hr : .ellipsis ∉ r.entries) {e : Entry} (he : e ∈ r.entries) :
    ∃ b, e = .symbol ⟨r.family, b⟩ := by
  cases e with
  | symbol s => exact ⟨s.optional, by rw [← r.charClass_eq he]⟩
  | ellipsis => exact absurd he hr

/-- **A run in normal order** has no inverted symbols side by side. -/
theorem inOrder_eq_self {r : FamilyRun} (hr : .ellipsis ∉ r.entries) :
    Entry.inOrder r.entries = r.entries ↔ r.entries.IsChain (¬ Entry.Inverted · ·) := by
  have hoptional : r.entries.filter Entry.isOptional = r.entries.filter (!·.isMandatory) := by
    refine List.filter_congr fun e he => ?_
    obtain ⟨b, rfl⟩ := eq_symbol hr he
    cases b <;> rfl
  have hellipsis : r.entries.filter Entry.isEllipsis = [] := by
    refine List.filter_eq_nil_iff.mpr fun e he => ?_
    obtain ⟨b, rfl⟩ := eq_symbol hr he
    exact Bool.false_ne_true
  rw [Entry.inOrder, hoptional, hellipsis, List.append_nil, filter_append_filter_eq_self]
  refine List.IsChain.iff_of_mem_imp fun e e' he he' => ?_
  obtain ⟨b, rfl⟩ := eq_symbol hr he
  obtain ⟨b', rfl⟩ := eq_symbol hr he'
  cases b <;> cases b' <;> simp [Entry.Inverted, Entry.isMandatory]

end FamilyRun

namespace ValueGroup

variable {g : ValueGroup}

theorem leading_eq_zero (hg : .ellipsis ∉ g.entries) : g.leading = 0 := by
  by_contra hne
  exact hg (List.mem_append_left _ (List.mem_replicate.mpr ⟨hne, rfl⟩))

theorem entries_eq_flatMap (hg : .ellipsis ∉ g.entries) :
    g.entries = g.runs.flatMap FamilyRun.entries := by
  rw [entries, leading_eq_zero hg, List.replicate_zero, List.nil_append]

theorem ellipsis_notMem_run (hg : .ellipsis ∉ g.entries) {r : FamilyRun} (hr : r ∈ g.runs) :
    .ellipsis ∉ r.entries := by
  intro he
  exact hg (List.mem_append_right _ (List.mem_flatMap.mpr ⟨r, hr, he⟩))

/-- **Inverted symbols of a value group** are inside of its runs. -/
theorem isChain_entries (hg : .ellipsis ∉ g.entries) :
    g.entries.IsChain (¬ Entry.Inverted · ·) ↔
      ∀ r ∈ g.runs, r.entries.IsChain (¬ Entry.Inverted · ·) := by
  have hnil : [] ∉ g.runs.map FamilyRun.entries := by
    intro h
    obtain ⟨r, -, hr⟩ := List.mem_map.mp h
    exact r.entries_ne_nil hr
  -- symbols at the border of two runs are of two families
  have hborder : (g.runs.map FamilyRun.entries).IsChain fun es es' =>
      ∀ e ∈ es.getLast?, ∀ e' ∈ es'.head?, ¬ Entry.Inverted e e' := by
    refine (List.isChain_map _).mpr (g.maximal.imp ?_)
    intro r r' hne e he e' he' hinverted
    obtain ⟨k, rfl, rfl⟩ := hinverted
    have hk := r.charClass_eq (List.mem_of_mem_getLast? he)
    have hk' := r'.charClass_eq (List.mem_of_mem_head? he')
    exact hne (hk.symm.trans hk')
  rw [entries_eq_flatMap hg, List.flatMap_def, List.isChain_flatten hnil, List.forall_mem_map]
  exact and_iff_left hborder

end ValueGroup

end TextMask
