import TextMask.Proofs.Mask.Outcome

/-!
# Outputs are words of the mask

What a mask writes is put together from the pieces of the slots that were passed, in their order,
and of the ellipsis if it was reached. The extracted value is made of the same pieces.

* `Piece`: a slot and the text that it contributes;
* `Slot.Yields`: the texts that a slot can contribute when it is passed;
* `Chain.Word`: the words of a chain, piece by piece, up to the chain that is left;
* `Offer.word`, `Trail.word`: what one offer and a completion contribute;
* `Trace.word`: what all offers contribute, by induction on the trace;
* `Run.pieces`, `Regular.word`: the pieces of a run, which are a word;
* `apply_word`: formatted text, extracted value and completeness of a compiled mask.
-/

namespace TextMask

open Chain

/-- A slot and the text that it contributes to an output. -/
structure Piece where
  slot : Slot
  text : Text
  deriving DecidableEq, Repr

namespace Piece

/-- The part of a piece that belongs to the extracted value: all of it, unless the slot is free. -/
def extracted (p : Piece) : Text := if p.slot.kind = .free then [] else p.text

/-- The part of a piece that comes from the input: all of it, unless the slot writes a literal. -/
def taken (p : Piece) : Text := if p.slot.isLiteral then [] else p.text

end Piece

/-- What a slot contributes when it is passed: its literal, one character of its class, or nothing
if it is optional. -/
inductive Slot.Yields : Slot → Text → Prop
  | fixed (d : Char) : Yields (.fixed d) [d]
  | free (d : Char) : Yields (.free d) [d]
  | value {k : CharClass} {c : Char} (h : k.accepts c = true) : Yields (.value k) [c]
  | optional {k : CharClass} {c : Char} (h : k.accepts c = true) : Yields (.optional k) [c]
  | skipped (k : CharClass) : Yields (.optional k) []

namespace Chain

/-- `Word chain pieces left`: the pieces lead through the chain as far as to the chain that is
left. An ellipsis contributes any number of characters of its class and is never passed. -/
inductive Word : Chain → List Piece → Chain → Prop
  | stop (chain : Chain) : Word chain [] chain
  | pass {s : Slot} {p : Text} {rest left : Chain} {pieces : List Piece} :
      s.Yields p → Word rest pieces left → Word (s :: rest) (⟨s, p⟩ :: pieces) left
  | again {k : CharClass} {c : Char} {left : Chain} {pieces : List Piece} :
      k.accepts c = true → Word [.ellipsis k] pieces left →
      Word [.ellipsis k] (⟨.ellipsis k, [c]⟩ :: pieces) left

/-- The slots that are passed by the steps, each with the text that it writes. -/
def pieces : Chain → List Step → List Piece
  | s :: _, step :: steps => ⟨s, step.insert.getD []⟩ :: pieces step.next steps
  | _, _ => []

variable {c : Char} {chain mid left : Chain} {step : Step} {text : List (Char × Bool)}
  {events : List Event} {steps : List Step} {pieces pieces' : List Piece}

theorem Word.append (h : Word chain pieces mid) (h' : Word mid pieces' left) :
    Word chain (pieces ++ pieces') left := by
  induction h with
  | stop => exact h'
  | pass hy _ ih => exact .pass hy (ih h')
  | again hk _ ih => exact .again hk (ih h')

/-! ### What a run contributes -/

/-- **One offer contributes one piece**: what is written, what is extracted, and from the input no
more than a character that is used up. -/
theorem Offer.word (ho : Offer c chain (some step)) :
    ∃ p : Piece, (∀ {pieces left}, Word step.next pieces left → Word chain (p :: pieces) left) ∧
      p.text = step.insert.getD [] ∧ p.extracted = step.value.getD [] ∧
      List.Sublist p.taken (if step.consumed then [c] else []) ∧
      ∀ steps, chain.pieces (step :: steps) = p :: step.next.pieces steps := by
  cases ho with
  | fixed d rest =>
    exact ⟨⟨_, [d]⟩, .pass (.fixed d), rfl, rfl, List.nil_sublist _, fun _ => rfl⟩
  | free d rest =>
    exact ⟨⟨_, [d]⟩, .pass (.free d), rfl, rfl, List.nil_sublist _, fun _ => rfl⟩
  | value rest h =>
    exact ⟨⟨_, [c]⟩, .pass (.value h), rfl, rfl, List.Sublist.refl _, fun _ => rfl⟩
  | optional rest h =>
    exact ⟨⟨_, [c]⟩, .pass (.optional h), rfl, rfl, List.Sublist.refl _, fun _ => rfl⟩
  | optionalSkip rest h =>
    exact ⟨⟨_, []⟩, .pass (.skipped _), rfl, rfl, List.Sublist.refl _, fun _ => rfl⟩
  | ellipsis h => exact ⟨⟨_, [c]⟩, .again h, rfl, rfl, List.Sublist.refl _, fun _ => rfl⟩

/-- **A trace is a word.** What its events write and extract comes from the pieces of a word, which
are those of its steps, and what the pieces take comes from the text, in order. -/
theorem Trace.word (ht : Trace chain text events left) :
    ∃ pieces, Word chain pieces left ∧
      pieces.flatMap (·.text) = events.flatMap Event.written ∧
      pieces.flatMap Piece.extracted = events.flatMap Event.extracted ∧
      List.Sublist (pieces.flatMap Piece.taken) (text.map (·.1)) ∧
      ∀ steps, chain.pieces (events.filterMap (·.step) ++ steps) = pieces ++ left.pieces steps := by
  induction ht with
  | done chain => exact ⟨[], .stop chain, rfl, rfl, List.Sublist.refl _, fun _ => rfl⟩
  | @drop chain left c b text events ho ht ih =>
    obtain ⟨pieces, hw, hwritten, hextracted, htaken, hsteps⟩ := ih
    exact ⟨pieces, hw, hwritten, hextracted, htaken.trans (List.sublist_cons_self _ _), hsteps⟩
  | @consume chain left c b text events step ho hc ht ih =>
    obtain ⟨pieces, hw, hwritten, hextracted, htaken, hsteps⟩ := ih
    obtain ⟨p, hp, htext, hvalue, htake, hstep⟩ := ho.word
    refine ⟨p :: pieces, hp hw, ?_, ?_, ?_, fun steps => ?_⟩
    · rw [List.flatMap_cons, List.flatMap_cons, htext, hwritten]; rfl
    · rw [List.flatMap_cons, List.flatMap_cons, hvalue, hextracted]; rfl
    · rw [hc] at htake
      exact htake.append htaken
    · rw [List.cons_append, ← hsteps, ← hstep]
      rfl
  | @pass chain left c b text events step ho hc ht ih =>
    obtain ⟨pieces, hw, hwritten, hextracted, htaken, hsteps⟩ := ih
    obtain ⟨p, hp, htext, hvalue, htake, hstep⟩ := ho.word
    refine ⟨p :: pieces, hp hw, ?_, ?_, ?_, fun steps => ?_⟩
    · rw [List.flatMap_cons, List.flatMap_cons, htext, hwritten]; rfl
    · rw [List.flatMap_cons, List.flatMap_cons, hvalue, hextracted]; rfl
    · rw [hc] at htake
      rw [List.flatMap_cons, List.sublist_nil.mp htake]
      exact htaken
    · rw [List.cons_append, ← hsteps, ← hstep]
      rfl

/-- **A completion is a word** of literals, which takes nothing. -/
theorem Trail.word (ht : Trail chain steps left) :
    ∃ pieces, Word chain pieces left ∧
      pieces.flatMap (·.text) = steps.flatMap (fun s => s.insert.getD []) ∧
      pieces.flatMap Piece.extracted = steps.flatMap (fun s => s.value.getD []) ∧
      pieces.flatMap Piece.taken = [] ∧ chain.pieces steps = pieces := by
  induction ht with
  | stop chain =>
    refine ⟨[], .stop chain, rfl, rfl, rfl, ?_⟩
    cases chain <;> rfl
  | fixed d ht ih =>
    obtain ⟨pieces, hw, hwritten, hextracted, htaken, hsteps⟩ := ih
    exact ⟨_, .pass (.fixed d) hw, congrArg (d :: ·) hwritten, congrArg (d :: ·) hextracted, htaken,
      congrArg (Piece.mk (.fixed d) [d] :: ·) hsteps⟩
  | free d ht ih =>
    obtain ⟨pieces, hw, hwritten, hextracted, htaken, hsteps⟩ := ih
    exact ⟨_, .pass (.free d) hw, congrArg (d :: ·) hwritten, hextracted, htaken,
      congrArg (Piece.mk (.free d) [d] :: ·) hsteps⟩

end Chain

/-- The slots of the chain that a run passes, each with the text that it writes. -/
def Run.pieces (chain : Chain) (r : Run) : List Piece :=
  chain.pieces (r.events.filterMap (·.step) ++ r.completed)

/-- **A run consists of its pieces**: they are a word, and what the run writes and extracts. -/
theorem Chain.Regular.word {chain : Chain} (h : chain.Regular) {t : CaretText}
    {autocomplete : Bool} {r : Run} (hr : chain.run t autocomplete = .ok r) :
    Word chain (r.pieces chain) r.left ∧ (r.pieces chain).flatMap (·.text) = r.written ∧
      (r.pieces chain).flatMap Piece.extracted = r.extracted := by
  obtain ⟨r', reached, hr', hf, htrail, -⟩ := h.run t autocomplete
  obtain rfl := Except.ok.inj (hr'.symm.trans hr)
  obtain ⟨offered, hw, hwritten, hextracted, -, hsteps⟩ := (h.trace_of_feed hf).word
  obtain ⟨completed, hw', hwritten', hextracted', -, hsteps'⟩ := htrail.word
  rw [Run.pieces, hsteps, hsteps', List.flatMap_append, List.flatMap_append, hwritten, hwritten',
    hextracted, hextracted']
  exact ⟨hw.append hw', rfl, rfl⟩

namespace Chain

variable {chain left : Chain} {pieces : List Piece}

/-! ### The form of a word -/

/-- A word that begins at an ellipsis stays there. -/
theorem Word.of_ellipsis {k : CharClass} (h : Word [.ellipsis k] pieces left) :
    left = [.ellipsis k] ∧ ∃ repeated : Text, (∀ c ∈ repeated, k.accepts c = true) ∧
      pieces.flatMap (·.text) = repeated ∧ pieces.flatMap Piece.extracted = repeated ∧
      pieces.flatMap Piece.taken = repeated := by
  generalize hchain : [Slot.ellipsis k] = chain at h
  induction h with
  | stop => exact ⟨rfl, [], List.forall_mem_nil _, rfl, rfl, rfl⟩
  | pass hy hw ih =>
    obtain ⟨rfl, -⟩ := List.cons.inj hchain
    cases hy
  | @again k' c left pieces hk hw ih =>
    cases hchain
    obtain ⟨hleft, repeated, hrep, htext, hextracted, htaken⟩ := ih rfl
    exact ⟨hleft, c :: repeated, List.forall_mem_cons.mpr ⟨hk, hrep⟩, congrArg (c :: ·) htext,
      congrArg (c :: ·) hextracted, congrArg (c :: ·) htaken⟩

/-- **The form of a word.** It passes the first slots of the chain, once each, and then repeats the
ellipsis if it has come to one. -/
theorem Word.form (h : Word chain pieces left) :
    ∃ (passed : List Piece) (repeated : Text), chain = passed.map (·.slot) ++ left ∧
      (∀ p ∈ passed, p.slot.Yields p.text) ∧
      (repeated = [] ∨ ∃ k, left = [.ellipsis k] ∧ ∀ c ∈ repeated, k.accepts c = true) ∧
      pieces.flatMap (·.text) = passed.flatMap (·.text) ++ repeated ∧
      pieces.flatMap Piece.extracted = passed.flatMap Piece.extracted ++ repeated ∧
      pieces.flatMap Piece.taken = passed.flatMap Piece.taken ++ repeated := by
  induction h with
  | stop chain => exact ⟨[], [], rfl, List.forall_mem_nil _, Or.inl rfl, rfl, rfl, rfl⟩
  | @pass s p rest left pieces hy hw ih =>
    obtain ⟨passed, repeated, hchain, hyields, hrep, htext, hextracted, htaken⟩ := ih
    refine ⟨⟨s, p⟩ :: passed, repeated, congrArg (s :: ·) hchain,
      List.forall_mem_cons.mpr ⟨hy, hyields⟩, hrep, ?_, ?_, ?_⟩
    · rw [List.flatMap_cons, List.flatMap_cons, List.append_assoc, htext]
    · rw [List.flatMap_cons, List.flatMap_cons, List.append_assoc, hextracted]
    · rw [List.flatMap_cons, List.flatMap_cons, List.append_assoc, htaken]
  | again hk hw ih =>
    obtain ⟨rfl, repeated, hrep, htext, hextracted, htaken⟩ := (Word.again hk hw).of_ellipsis
    exact ⟨[], repeated, rfl, List.forall_mem_nil _, Or.inr ⟨_, rfl, hrep⟩, htext, hextracted,
      htaken⟩

end Chain

/-- **Outputs are words of the mask.** For every text there are the slots that were passed, each
with its piece, and the chain that is left. The formatted text consists of the pieces and, if the
chain that is left is an ellipsis, of characters of its class; what does not come from literals is
taken from the text, in order; the extracted value leaves out the pieces of free slots and nothing
else; and the result is complete if no mandatory slot is left. -/
theorem apply_word {m : Mask} {format : Text} {w : Weights} (h : Mask.compile format w = .ok m)
    (t : CaretText) (autocomplete : Bool) :
    ∃ (r : Result) (passed : List Piece) (left : Chain) (repeated : Text),
      m.apply t autocomplete = .ok r ∧
      m.chain = passed.map (·.slot) ++ left ∧
      (∀ p ∈ passed, p.slot.Yields p.text) ∧
      (repeated = [] ∨ ∃ k, left = [.ellipsis k] ∧ ∀ c ∈ repeated, k.accepts c = true) ∧
      r.formatted.chars = passed.flatMap (·.text) ++ repeated ∧
      List.Sublist (passed.flatMap Piece.taken ++ repeated) t.chars ∧
      r.extracted = passed.flatMap Piece.extracted ++ repeated ∧
      (r.complete = true ↔ ∀ s ∈ left, s.isMandatory = false) := by
  have hreg := Mask.regular_of_compile h
  obtain ⟨run, reached, hrun, hf, ht, -⟩ := hreg.run t autocomplete
  obtain ⟨offered, hw, hwritten, hextracted, htaken, -⟩ := (hreg.trace_of_feed hf).word
  obtain ⟨completed, hw', hwritten', hextracted', htaken', -⟩ := ht.word
  obtain ⟨passed, repeated, hchain, hyields, hrep, htext, hvalue, htake⟩ := (hw.append hw').form
  rw [List.flatMap_append] at htext hvalue htake
  rw [htaken', List.append_nil] at htake
  rw [t.map_fst_marked, htake] at htaken
  refine ⟨run.outcome m.weights, passed, run.left, repeated, Mask.apply_eq hreg hrun, hchain,
    hyields, hrep, ?_, htaken, ?_, ?_⟩
  · show run.written = _
    rw [Run.written, ← hwritten, ← hwritten', htext]
  · show run.extracted = _
    rw [Run.extracted, ← hextracted, ← hextracted', hvalue]
  · show (!run.left.any Slot.isMandatory) = true ↔ _
    rw [Bool.not_eq_true', List.any_eq_false]
    simp only [Bool.not_eq_true]

/-- The pieces of digits with a stop in between. -/
theorem apply_word_decimal :
    ∃ (r : Result) (passed : List Piece) (left : Chain) (repeated : Text),
      Mask.apply ⟨['[', '0', ']', '.', '[', '…', ']'], {},
        [.value .numeric, .free '.', .ellipsis .alphanumeric]⟩ (.atEnd ['1', '5']) true = .ok r ∧
      [.value .numeric, .free '.', .ellipsis .alphanumeric] = passed.map (·.slot) ++ left ∧
      r.formatted.chars = passed.flatMap (·.text) ++ repeated := by
  have hcompile : Mask.compile ['[', '0', ']', '.', '[', '…', ']'] {} =
      .ok ⟨_, {}, [.value .numeric, .free '.', .ellipsis .alphanumeric]⟩ := rfl
  obtain ⟨r, passed, left, repeated, hr, hchain, -, -, hchars, -⟩ :=
    apply_word hcompile (.atEnd ['1', '5']) true
  exact ⟨r, passed, left, repeated, hr, hchain, hchars⟩

end TextMask
