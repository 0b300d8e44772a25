import TextMask.Proofs.Mask.AtEnd

/-!
# Characters that are rejected

A character that is rejected by the slot to which it comes is dropped. The run goes on as if it had
not been typed: the drop takes back the place that the caret counted for the character, and a slot
that rejects a character has no literal to complete. What is left of it is its score.

* `CaretText.Inserts`: a text with one more character in it, and the caret where it was;
* `Inserts.marked`, `Inserts.caretAtEnd`: its marks, and whether its caret stands at the end;
* `Offer.autocomplete_of_drop`: a slot that rejects a character has nothing to write;
* `Regular.run_insert`: the run over the longer text has one more event;
* `Run.outcome_insert_drop`: what a drop changes in the result of a run;
* `rejected_character_invisible`: the results of a compiled mask.
-/

namespace TextMask

open Chain

/-! ### Texts with one more character -/

namespace CaretText

/-- `Inserts u x v t t'`: the second text has one more character, and the caret stands between the
same characters as in the first one. Right in front of the new character it stays there. -/
structure Inserts (u : Text) (x : Char) (v : Text) (t t' : CaretText) : Prop where
  chars_eq : t.chars = u ++ v
  chars_eq' : t'.chars = u ++ x :: v
  caret_eq : t'.caret = if t.caret ≤ u.length then t.caret else t.caret + 1

variable {t t' : CaretText} {u v : Text} {x : Char}

/-- **One more character in a text.** The caret counts it if it stands before the caret, so all other
characters keep their marks. -/
theorem Inserts.marked (h : Inserts u x v t t') :
    ∃ front behind b, t.marked = front ++ behind ∧ t'.marked = front ++ (x, b) :: behind ∧
      front.map (·.1) = u ∧ behind.map (·.1) = v := by
  obtain ⟨ht, ht', hc⟩ := h
  by_cases hle : t.caret ≤ u.length
  · rw [if_pos hle] at hc
    refine ⟨(u.take t.caret).map (·, true) ++ (u.drop t.caret).map (·, false), v.map (·, false),
      false, ?_, ?_, ?_, ?_⟩
    · simp [CaretText.marked, ht, List.take_append_of_le_length hle,
        List.drop_append_of_le_length hle]
    · simp [CaretText.marked, ht', hc, List.take_append_of_le_length hle,
        List.drop_append_of_le_length hle]
    · simp [Function.comp_def]
    · simp [Function.comp_def]
  · rw [if_neg hle] at hc
    obtain ⟨n, hn⟩ : ∃ n, t.caret = u.length + n := ⟨t.caret - u.length, by omega⟩
    rw [hn, Nat.add_assoc] at hc
    refine ⟨u.map (·, true), (v.take n).map (·, true) ++ (v.drop n).map (·, false), true, ?_, ?_, ?_,
      ?_⟩
    · simp [CaretText.marked, ht, hn, List.take_length_add_append, List.drop_length_add_append]
    · simp [CaretText.marked, ht', hc, List.take_length_add_append, List.drop_length_add_append]
    · simp [Function.comp_def]
    · simp [Function.comp_def]

/-- The caret stands at the end as before, unless the new character is the last one. -/
theorem Inserts.caretAtEnd (h : Inserts u x v t t') (hv : v ≠ []) :
    t'.caretAtEnd = t.caretAtEnd := by
  obtain ⟨ht, ht', hc⟩ := h
  have hpos : 0 < v.length := List.length_pos_iff.mpr hv
  rw [Bool.eq_iff_iff]
  simp only [CaretText.caretAtEnd, beq_iff_eq, ht, ht', hc, List.length_append, List.length_cons]
  split <;> omega

end CaretText

/-! ### Drops -/

namespace Chain

variable {x : Char} {chain reached : Chain} {events : List Event} {u v : Text}

/-- A slot that rejects a character has nothing to write. -/
theorem Offer.autocomplete_of_drop (ho : Offer x chain none) : chain.autocomplete = .ok none := by
  cases ho with
  | valueDrop _ _ | ellipsisDrop _ | endOfLine => rfl

/-- **One more event.** If the chain that the text in front of it leaves rejects a character, the run
is the run without the character, and a drop. -/
theorem Regular.run_insert (h : chain.Regular)
    (hf : chain.feed (u.map (·, true)) = .ok (events, reached)) (hx : reached.accept x = .ok none)
    {t t' : CaretText} (hins : CaretText.Inserts u x v t t') (autocomplete : Bool) :
    ∃ front behind b steps left,
      chain.run t autocomplete = .ok ⟨front ++ behind, steps, left⟩ ∧
      chain.run t' autocomplete = .ok ⟨front ++ ⟨b, none⟩ :: behind, steps, left⟩ := by
  obtain ⟨front, behind, b, hm, hm', rfl, rfl⟩ := hins.marked
  have hmarks : ((front.map (·.1)).map (·, true)).map (·.1) = front.map (·.1) := by
    simp [Function.comp_def]
  obtain ⟨events, hfront, -⟩ := feed_remark hmarks hf
  have hfront := h.trace_of_feed hfront
  have hreached := hfront.regular h
  obtain ⟨events', left, -, hbehind⟩ := hreached.feed behind
  have hdrop : Offer x reached none := by
    obtain ⟨outcome, ha, ho⟩ := hreached.offer x
    rw [Except.ok.inj (ha.symm.trans hx)] at ho
    exact ho
  have hrun : Trace chain t.marked (events ++ events') left := by
    rw [hm]
    exact hfront.append hbehind
  have hrun' : Trace chain t'.marked (events ++ ⟨b, none⟩ :: events') left := by
    rw [hm']
    exact hfront.append (.drop hdrop hbehind)
  obtain ⟨steps, last, hfinish, -⟩ := (hbehind.regular hreached).finish (autocomplete && t.caretAtEnd)
  refine ⟨events, events', b, steps, last, h.run_of_trace hrun hfinish, h.run_of_trace hrun' ?_⟩
  by_cases hv : behind.map (·.1) = []
  · -- the character is the last one, and the chain that rejects it has nothing to complete
    obtain rfl := List.map_eq_nil_iff.mp hv
    cases hbehind
    have hstop (b : Bool) : reached.finish b = .ok ([], reached) :=
      finish_of_stop fun _ => hdrop.autocomplete_of_drop
    rw [hstop] at hfinish ⊢
    exact hfinish
  · rw [hins.caretAtEnd hv]
    exact hfinish

end Chain

/-- **What a drop changes** in the result of a run: the affinity, and nothing else. -/
theorem Run.outcome_insert_drop (w : Weights) (front behind : List Event) (b : Bool)
    (steps : List Step) (left : Chain) :
    (⟨front ++ ⟨b, none⟩ :: behind, steps, left⟩ : Run).outcome w =
      { (⟨front ++ behind, steps, left⟩ : Run).outcome w with
        affinity := (⟨front ++ behind, steps, left⟩ : Run).affinity w + w.dropped } := by
  have hwritten : (⟨b, none⟩ : Event).written = [] := rfl
  have hextracted : (⟨b, none⟩ : Event).extracted = [] := rfl
  have hscore : Event.score w ⟨b, none⟩ = w.dropped := rfl
  have hbefore : (⟨front ++ ⟨b, none⟩ :: behind, steps, left⟩ : Run).writtenBefore =
      (⟨front ++ behind, steps, left⟩ : Run).writtenBefore := by
    cases b <;> simp [writtenBefore, hwritten]
  have haffinity : (⟨front ++ ⟨b, none⟩ :: behind, steps, left⟩ : Run).affinity w =
      (⟨front ++ behind, steps, left⟩ : Run).affinity w + w.dropped := by
    simp only [affinity, ← List.sum_eq_foldr, List.map_append, List.map_cons, List.sum_append,
      List.sum_cons, hscore]
    omega
  simp only [outcome, hbefore, haffinity, Result.mk.injEq, CaretText.mk.injEq, and_true]
  exact ⟨by simp [written, hwritten], by simp [extracted, hextracted]⟩

/-- **A rejected character is invisible** but for its score. If the chain that a text leaves rejects
a character, the character can stand behind the text or not, whatever follows, wherever the caret
stands, and for either setting of completion: the formatted text with its caret, the extracted value
and completeness are the same. The affinity differs by the weight of a drop. -/
theorem rejected_character_invisible {m : Mask} {format : Text} {w : Weights}
    (h : Mask.compile format w = .ok m) {u v : Text} {x : Char} {run : Run}
    (hrun : m.chain.run (.atEnd u) false = .ok run) (hx : run.left.accept x = .ok none)
    {t t' : CaretText} (ht : t.chars = u ++ v) (ht' : t'.chars = u ++ x :: v)
    (hc : t'.caret = if t.caret ≤ u.length then t.caret else t.caret + 1) (autocomplete : Bool) :
    ∃ r, m.apply t autocomplete = .ok r ∧
      m.apply t' autocomplete = .ok { r with affinity := r.affinity + w.dropped } := by
  have hreg := Mask.regular_of_compile h
  obtain ⟨-, -, rfl⟩ := Mask.compile_eq_ok_iff.mp h
  obtain ⟨events, reached, hf, -⟩ := hreg.feed (u.map (·, true))
  have hplain : m.chain.run (.atEnd u) false = .ok ⟨events, [], reached⟩ := by
    refine run_plain (Bool.false_and _) ?_
    rw [CaretText.marked_atEnd]
    exact hf
  obtain rfl := Except.ok.inj (hplain.symm.trans hrun)
  obtain ⟨front, behind, b, steps, left, hrun, hrun'⟩ :=
    hreg.run_insert hf hx ⟨ht, ht', hc⟩ autocomplete
  refine ⟨_, Mask.apply_eq hreg hrun, ?_⟩
  rw [Mask.apply_eq hreg hrun', Run.outcome_insert_drop]
  rfl

/-- A letter in front of the last digit, with the caret at the end; and a letter behind the last
character, with the caret in front of it, where completion has nothing to do. -/
theorem rejected_character_invisible_decimal :
    ∃ (m : Mask) (run : Run) (r r' : Result),
      Mask.compile ['[', '0', ']', '\x7b', '.', '\x7d', '[', '0', ']', '-'] {} = .ok m ∧
      m.chain.run (.atEnd ['1', '.']) false = .ok run ∧ run.left.accept 'x' = .ok none ∧
      m.apply ⟨['1', '.', '5'], 3, by decide⟩ true = .ok r ∧
      m.apply ⟨['1', '.', 'x', '5'], 4, by decide⟩ true = .ok { r with affinity := 2 } ∧
      m.apply ⟨['1', '.'], 2, by decide⟩ true = .ok r' ∧
      m.apply ⟨['1', '.', 'x'], 2, by decide⟩ true = .ok { r' with affinity := 1 } := by
  have hcompile : Mask.compile ['[', '0', ']', '\x7b', '.', '\x7d', '[', '0', ']', '-'] {} =
      .ok ⟨_, {}, [.value .numeric, .fixed '.', .value .numeric, .free '-', .endOfLine]⟩ := rfl
  have hreject : Chain.accept 'x' [.value .numeric, .free '-', .endOfLine] = .ok none := rfl
  have hfront : (⟨['1', '.', 'x', '5'], 4, by decide⟩ : CaretText).chars =
      ['1', '.'] ++ 'x' :: ['5'] := rfl
  have hlast : (⟨['1', '.', 'x'], 2, by decide⟩ : CaretText).chars = ['1', '.'] ++ 'x' :: [] := rfl
  obtain ⟨run, -, hrun, -⟩ := (Mask.regular_of_compile hcompile).run (.atEnd ['1', '.']) false
  obtain rfl := Except.ok.inj hrun
  obtain ⟨r, hr, hinside⟩ := rejected_character_invisible hcompile hrun hreject
    (rfl : (⟨['1', '.', '5'], 3, by decide⟩ : CaretText).chars = _) hfront rfl true
  obtain ⟨r', hr', hbehind⟩ := rejected_character_invisible hcompile hrun hreject
    (rfl : (⟨['1', '.'], 2, by decide⟩ : CaretText).chars = _) hlast rfl true
  obtain rfl := Except.ok.inj hr
  obtain rfl := Except.ok.inj hr'
  exact ⟨_, _, _, _, hcompile, rfl, rfl, rfl, hinside, rfl, hbehind⟩

end TextMask
