import Mathlib.Data.List.Flatten
import TextMask.Proofs.Chain.Trace

/-!
# Every text has an outcome

A mask answers every text: both loops of a run end, nothing a slot is asked for is missing, and
the caret of the answer lies inside the formatted text.

* `Run.writtenBefore`: the part of the output that belongs before the caret;
* `Trace.caret_eq`: the caret, moved by one at each drop and each insertion before it, is always
  the length of that part;
* `Run.outcome`, `Mask.apply_eq`: what a run amounts to, with no failure left;
* `Trace.length_le`: each offer uses up a character or a slot that can be passed;
* `apply_total`: a compiled mask answers every text, and how many offers it takes.
-/

namespace TextMask

open Chain

/-! ### The caret -/

namespace Chain

variable {c : Char} {chain reached left : Chain} {step : Step} {text : List (Char × Bool)}
  {events : List Event} {steps : List Step}

/-- A slot that is passed before the caret moves it by what it writes. -/
theorem Offer.caretShift_of_pass (ho : Offer c chain (some step)) (hc : step.consumed = false) :
    (Event.mk true (some step)).caretShift = (step.insert.getD []).length := by
  cases ho with
  | fixed d rest =>
    have hd : (d == c) = false := hc
    simp [Event.caretShift, Event.isDropped, Event.isInserted, hd]
  | free d rest =>
    have hd : (d == c) = false := hc
    simp [Event.caretShift, Event.isDropped, Event.isInserted, hd]
  | optionalSkip _ _ => rfl
  | value _ _ | optional _ _ | ellipsis _ => cases hc

/-- **Caret invariant.** At every moment of a run the caret, counted from the characters before it
and moved by the events, is the length of what was written before it. -/
theorem Trace.caret_eq (ht : Trace chain text events left) :
    (text.countP (·.2) : Int) + (events.map Event.caretShift).foldr (· + ·) 0
      = ((events.filter (·.beforeCaret)).flatMap Event.written).length := by
  induction ht with
  | done => rfl
  | @drop chain left c b text events ho ht ih =>
    cases b with
    | false => simpa [Event.caretShift] using ih
    | true =>
      have hs : (Event.mk true none).caretShift = -1 := rfl
      have hw : (Event.mk true none).written = [] := rfl
      rw [List.countP_cons_of_pos rfl, List.map_cons, List.foldr_cons, hs,
        List.filter_cons_of_pos rfl, List.flatMap_cons, hw, List.nil_append, ← ih]
      omega
  | @consume chain left c b text events step ho hc ht ih =>
    cases b with
    | false => simpa [Event.caretShift] using ih
    | true =>
      have hs : (Event.mk true (some step)).caretShift = 0 := by
        simp [Event.caretShift, Event.isDropped, Event.isInserted, hc]
      have hw : (Event.mk true (some step)).written = [c] := by
        simp [Event.written, ho.insert_of_consume hc]
      rw [List.countP_cons_of_pos rfl, List.map_cons, List.foldr_cons, hs,
        List.filter_cons_of_pos rfl, List.flatMap_cons, hw, List.length_append,
        List.length_singleton]
      omega
  | @pass chain left c b text events step ho hc ht ih =>
    cases b with
    | false => simpa [Event.caretShift] using ih
    | true =>
      have hs := ho.caretShift_of_pass hc
      have hw : (Event.mk true (some step)).written = step.insert.getD [] := rfl
      rw [List.map_cons, List.foldr_cons, hs, List.filter_cons_of_pos rfl, List.flatMap_cons, hw,
        List.length_append, Int.natCast_add, ← ih]
      omega

/-- Completion writes one literal at a time. -/
theorem Trail.countP_insert (ht : Trail chain steps left) :
    steps.countP (·.insert.isSome) = (steps.flatMap fun s => s.insert.getD []).length := by
  induction ht with
  | stop => rfl
  | fixed d ht ih => rw [List.countP_cons_of_pos rfl, ih]; rfl
  | free d ht ih => rw [List.countP_cons_of_pos rfl, ih]; rfl

end Chain

/-- The characters marked as standing before the caret are as many as the caret counts. -/
theorem CaretText.countP_marked (t : CaretText) : t.marked.countP (·.2) = t.caret := by
  have hle := t.caret_le
  have hbefore : ((t.chars.take t.caret).map fun c => (c, true)).countP (·.2) = t.caret := by
    rw [List.countP_map]
    refine (List.countP_eq_length.mpr fun _ _ => rfl).trans ?_
    rw [List.length_take]
    omega
  have hbehind : ((t.chars.drop t.caret).map fun c => (c, false)).countP (·.2) = 0 := by
    rw [List.countP_map]
    exact List.countP_eq_zero.mpr fun _ _ => Bool.false_ne_true
  rw [CaretText.marked, List.countP_append, hbefore, hbehind, Nat.add_zero]

/-! ### What a run amounts to -/

namespace Run

/-- The part of the output that belongs before the caret: what was written before it, and what was
completed. -/
def writtenBefore (r : Run) : Text :=
  (r.events.filter (·.beforeCaret)).flatMap Event.written ++
    r.completed.flatMap fun s => s.insert.getD []

theorem writtenBefore_length_le (r : Run) : r.writtenBefore.length ≤ r.written.length := by
  have hs : List.Sublist ((r.events.filter (·.beforeCaret)).flatMap Event.written)
      (r.events.flatMap Event.written) := List.filter_sublist.flatMap _
  rw [writtenBefore, written, List.length_append, List.length_append]
  exact Nat.add_le_add_right hs.length_le _

/-- The result of a run. -/
def outcome (w : Weights) (r : Run) : Result where
  formatted := ⟨r.written, r.writtenBefore.length, r.writtenBefore_length_le⟩
  extracted := r.extracted
  affinity := r.affinity w
  complete := !r.left.any Slot.isMandatory

end Run

variable {m : Mask} {t : CaretText} {autocomplete : Bool} {r : Run}

/-- **The caret of a run.** Moving the caret as the run says leads to the end of what belongs
before it. -/
theorem Chain.Regular.caret_add_shift {chain : Chain} (h : chain.Regular)
    (hr : chain.run t autocomplete = .ok r) :
    (t.caret : Int) + r.caretShift = r.writtenBefore.length := by
  obtain ⟨r', reached, hr', hf, ht, -⟩ := h.run t autocomplete
  obtain rfl := Except.ok.inj (hr'.symm.trans hr)
  have hc := (h.trace_of_feed hf).caret_eq
  rw [CaretText.countP_marked] at hc
  rw [Run.caretShift, Run.writtenBefore, List.length_append, Int.natCast_add, ← hc,
    ht.countP_insert]
  omega

/-- **No failure is left.** A mask with a regular chain answers with the outcome of the run. -/
theorem Mask.apply_eq (h : m.chain.Regular) (hr : m.chain.run t autocomplete = .ok r) :
    m.apply t autocomplete = .ok (r.outcome m.weights) := by
  obtain ⟨r', reached, hr', hf, ht, -⟩ := h.run t autocomplete
  obtain rfl := Except.ok.inj (hr'.symm.trans hr)
  have hle := r'.writtenBefore_length_le
  have hplace : CaretText.place r'.written (t.caret + r'.caretShift)
      = .ok ⟨r'.written, r'.writtenBefore.length, hle⟩ := by
    rw [h.caret_add_shift hr, CaretText.place, dif_pos (by omega)]
    rfl
  have hfilled := (ht.regular ((h.trace_of_feed hf).regular h)).isFilled_eq
  rw [Mask.apply, hr]
  show (CaretText.place r'.written (t.caret + r'.caretShift)).mapError _ >>= (fun formatted =>
    r'.left.isFilled >>= fun complete => pure (⟨formatted, _, _, complete⟩ : Result)) = _
  rw [hplace, hfilled]
  rfl

/-- A compiled mask answers every text. -/
theorem Mask.exists_apply {format : Text} {w : Weights} (h : Mask.compile format w = .ok m)
    (t : CaretText) (autocomplete : Bool) : ∃ r, m.apply t autocomplete = .ok r := by
  have hreg := Mask.regular_of_compile h
  obtain ⟨run, -, hrun, -⟩ := hreg.run t autocomplete
  exact ⟨_, Mask.apply_eq hreg hrun⟩

/-! ### How long a run takes -/

namespace Chain

variable {chain left : Chain} {text : List (Char × Bool)} {events : List Event}
  {steps : List Step}

/-- **Each offer uses something up**: a character, or a slot that can be passed. -/
theorem Trace.length_le (ht : Trace chain text events left) :
    events.length + left.countP Slot.isPassable ≤ text.length + chain.countP Slot.isPassable := by
  induction ht with
  | done => simp
  | drop ho ht ih =>
    rw [List.length_cons, List.length_cons]
    omega
  | consume ho hc ht ih =>
    have hle := ho.next_suffix.sublist.countP_le (p := Slot.isPassable)
    rw [List.length_cons, List.length_cons]
    omega
  | pass ho hc ht ih =>
    obtain ⟨s, hs, -, hp⟩ := ho.eq_cons_of_pass hc
    rw [hs, List.countP_cons_of_pos hp, List.length_cons]
    omega

/-- Each completion uses up a literal. -/
theorem Trail.length_le (ht : Trail chain steps left) :
    steps.length + left.countP Slot.isLiteral ≤ chain.countP Slot.isLiteral := by
  induction ht with
  | stop => simp
  | fixed d ht ih => rw [List.countP_cons_of_pos rfl, List.length_cons]; omega
  | free d ht ih => rw [List.countP_cons_of_pos rfl, List.length_cons]; omega

end Chain

/-- **Applying a mask never fails.** A compiled mask answers every text, at every caret, whether or
not literals are to be completed and whatever the weights. The caret of the answer lies inside the
formatted text; no more characters are offered than the text has characters and the chain has
literals and optional slots; completion is tried no more often than the chain has literals, and
once more to stop. -/
theorem apply_total {format : Text} {w : Weights} (h : Mask.compile format w = .ok m)
    (t : CaretText) (autocomplete : Bool) :
    ∃ (run : Run) (result : Result),
      m.chain.run t autocomplete = .ok run ∧ m.apply t autocomplete = .ok result ∧
      result.formatted.chars = run.written ∧
      (result.formatted.caret : Int) = t.caret + run.caretShift ∧
      0 ≤ t.caret + run.caretShift ∧ t.caret + run.caretShift ≤ run.written.length ∧
      run.events.length ≤ t.chars.length + m.chain.countP Slot.isPassable ∧
      run.completed.length + 1 ≤ m.chain.countP Slot.isLiteral + 1 := by
  have hreg := Mask.regular_of_compile h
  obtain ⟨run, reached, hrun, hf, ht, -⟩ := hreg.run t autocomplete
  have htrace := hreg.trace_of_feed hf
  have hcaret := hreg.caret_add_shift hrun
  have hle := run.writtenBefore_length_le
  have hoffers := htrace.length_le
  have htrail := ht.length_le
  have hreached := htrace.suffix.sublist.countP_le (p := Slot.isLiteral)
  have hmarked : t.marked.length = t.chars.length := by
    rw [← t.map_fst_marked, List.length_map]
  rw [hmarked] at hoffers
  refine ⟨run, run.outcome m.weights, hrun, Mask.apply_eq hreg hrun, rfl, hcaret.symm,
    ?_, ?_, ?_, ?_⟩
  · rw [hcaret]; omega
  · rw [hcaret]; omega
  · omega
  · omega

/-- Digits with a stop in between, and a letter that finds no place. -/
theorem apply_total_decimal :
    ∃ (m : Mask) (run : Run) (result : Result),
      Mask.compile ['[', '0', '9', ']', '\x7b', '.', '\x7d', '[', '0', '…', ']'] {} = .ok m ∧
      m.chain.run ⟨['1', 'x', '5'], 2, by decide⟩ true = .ok run ∧
      m.apply ⟨['1', 'x', '5'], 2, by decide⟩ true = .ok result ∧
      run.events.length ≤ 3 + 2 ∧ run.completed.length + 1 ≤ 1 + 1 := by
  have hcompile : Mask.compile ['[', '0', '9', ']', '\x7b', '.', '\x7d', '[', '0', '…', ']'] {} =
      .ok ⟨_, {}, [.value .numeric, .optional .numeric, .fixed '.', .value .numeric,
        .ellipsis .numeric]⟩ := rfl
  obtain ⟨run, result, hrun, hresult, -, -, -, -, hoffers, hcompletions⟩ :=
    apply_total hcompile ⟨['1', 'x', '5'], 2, by decide⟩ true
  exact ⟨_, run, result, hcompile, hrun, hresult, hoffers, hcompletions⟩

end TextMask
