import TextMask.Proofs.Chain.Releasing
import TextMask.Proofs.Mask.AtEnd
import TextMask.Proofs.Mask.Word

/-!
# Curly brackets decide what is extracted

A pattern and the pattern without its curly brackets format every text alike. A run through the one
chain mirrors the run through the other, offer by offer; what it extracts lacks the literals that are
no longer fixed.

* `Piece.flatMap_extracted_release`: what is extracted of pieces whose slots are released;
* `Event.shown`: what an event shows of itself in the formatted text, the caret and the score;
* `Trace.release`, `Trail.release`, `Regular.run_release`: the run through a released chain shows the
  same, and its pieces are the released ones;
* `braces_decide_extraction`: the results of compiled masks.
-/

namespace TextMask

open Chain

/-! ### Released pieces -/

namespace Piece

/-- The piece with its slot released. -/
def release (p : Piece) : Piece := { p with slot := p.slot.release }

theorem extracted_release (p : Piece) :
    p.release.extracted = if p.slot.kind != .fixed then p.extracted else [] := by
  obtain ⟨⟨kind, _, _, _⟩, _⟩ := p
  cases kind <;> rfl

/-- Released pieces are extracted but for those of fixed slots. -/
theorem flatMap_extracted_release (pieces : List Piece) :
    (pieces.map release).flatMap extracted =
      (pieces.filter (·.slot.kind != .fixed)).flatMap extracted := by
  induction pieces with
  | nil => rfl
  | cons p pieces ih =>
    rw [List.map_cons, List.flatMap_cons, ih, extracted_release, List.filter_cons]
    split
    · rw [List.flatMap_cons]
    · rfl

end Piece

/-! ### What events show -/

namespace Event

/-- The event without what it extracts and the chain to which it leads. -/
def shown (e : Event) : Event :=
  { e with step := e.step.map fun s => { s with value := none, next := [] } }

theorem written_shown (e : Event) : e.shown.written = e.written := by
  obtain ⟨_, _ | _⟩ := e <;> rfl

theorem score_shown (w : Weights) (e : Event) : e.shown.score w = e.score w := by
  obtain ⟨_, _ | _⟩ := e <;> rfl

end Event

/-- Runs that show the same differ in what they extract only. -/
theorem Run.outcome_congr {r r' : Run} (w : Weights)
    (hevents : r'.events.map Event.shown = r.events.map Event.shown)
    (hcompleted : r'.completed.map (·.insert) = r.completed.map (·.insert))
    (hleft : r'.left.any Slot.isMandatory = r.left.any Slot.isMandatory) :
    r'.outcome w = { r.outcome w with extracted := r'.extracted } := by
  have hwritten (es : List Event) :
      es.flatMap Event.written = (es.map Event.shown).flatMap Event.written := by
    simp only [List.flatMap_map, Event.written_shown]
  have hbefore (es : List Event) : (es.filter (·.beforeCaret)).map Event.shown =
      (es.map Event.shown).filter (·.beforeCaret) := by
    rw [List.filter_map]
    rfl
  have hscore (es : List Event) :
      es.map (Event.score w) = (es.map Event.shown).map (Event.score w) := by
    simp only [List.map_map, Function.comp_def, Event.score_shown]
  have hinsert (steps : List Step) : (steps.flatMap fun s => s.insert.getD []) =
      (steps.map (·.insert)).flatMap (·.getD []) := by
    rw [List.flatMap_map]
  have htext : r'.written = r.written := by
    rw [written, written, hwritten, hevents, ← hwritten, hinsert, hcompleted, ← hinsert]
  have hcaret : r'.writtenBefore = r.writtenBefore := by
    rw [writtenBefore, writtenBefore, hwritten, hbefore, hevents, ← hbefore, ← hwritten, hinsert,
      hcompleted, ← hinsert]
  have haffinity : r'.affinity w = r.affinity w := by
    rw [affinity, affinity, hscore, hevents, ← hscore]
  simp only [outcome, htext, hcaret, haffinity, hleft]

/-! ### Runs through released chains -/

namespace Chain

variable {c : Char} {chain left : Chain} {step : Step} {text : List (Char × Bool)}
  {events : List Event} {steps steps' : List Step} {autocomplete : Bool}

/-- A step through a released chain makes the released piece. -/
theorem Offer.pieces_release (ho : Offer c chain (some step)) (value : Option Text)
    (h : pieces (step.next.map Slot.release) steps' = (pieces step.next steps).map Piece.release) :
    pieces (chain.map Slot.release)
        ({ step with value := value, next := step.next.map Slot.release } :: steps') =
      (pieces chain (step :: steps)).map Piece.release := by
  cases chain with
  | nil => cases ho
  | cons s rest => exact congrArg (Piece.release ⟨s, _⟩ :: ·) h

/-- **Traces of a released chain.** The same text makes events that show the same, and they pass the
released slots. -/
theorem Trace.release (ht : Trace chain text events left) :
    ∃ events', Trace (chain.map Slot.release) text events' (left.map Slot.release) ∧
      events'.map Event.shown = events.map Event.shown ∧
      ∀ steps steps', pieces (left.map Slot.release) steps' =
          (pieces left steps).map Piece.release →
        pieces (chain.map Slot.release) (events'.filterMap (·.step) ++ steps') =
          (pieces chain (events.filterMap (·.step) ++ steps)).map Piece.release := by
  -- the pieces are told with any steps behind them: those of a completion are still to come
  induction ht with
  | done chain => exact ⟨[], .done _, rfl, fun _ _ h => h⟩
  | @drop chain left c b text events ho _ ih =>
    obtain ⟨events', ht', hshown, hpieces⟩ := ih
    exact ⟨⟨b, none⟩ :: events', .drop ho.release_drop ht', congrArg (_ :: ·) hshown, hpieces⟩
  | @consume chain left c b text events step ho hc _ ih =>
    obtain ⟨events', ht', hshown, hpieces⟩ := ih
    obtain ⟨value, ho'⟩ := ho.release
    refine ⟨⟨b, some _⟩ :: events', .consume ho' hc ht', congrArg (_ :: ·) hshown, ?_⟩
    intro steps steps' h
    exact ho.pieces_release value (hpieces steps steps' h)
  | @pass chain left c b text events step ho hc _ ih =>
    obtain ⟨events', ht', hshown, hpieces⟩ := ih
    obtain ⟨value, ho'⟩ := ho.release
    refine ⟨⟨b, some _⟩ :: events', .pass ho' hc ht', congrArg (_ :: ·) hshown, ?_⟩
    intro steps steps' h
    exact ho.pieces_release value (hpieces steps steps' h)

/-- **Trails of a released chain** complete the same literals. -/
theorem Trail.release (ht : Trail chain steps left) :
    ∃ steps', Trail (chain.map Slot.release) steps' (left.map Slot.release) ∧
      steps'.map (·.insert) = steps.map (·.insert) ∧
      pieces (chain.map Slot.release) steps' = (pieces chain steps).map Piece.release := by
  induction ht with
  | stop chain =>
    refine ⟨[], .stop _, rfl, ?_⟩
    cases chain <;> rfl
  | fixed d _ ih | free d _ ih =>
    obtain ⟨steps', ht', hinsert, hpieces⟩ := ih
    exact ⟨_, .free d ht', congrArg (_ :: ·) hinsert, congrArg (_ :: ·) hpieces⟩

/-- What a released chain completes behind a text. -/
theorem Regular.finish_release (h : chain.Regular)
    (hf : chain.finish autocomplete = .ok (steps, left)) :
    ∃ steps', Chain.finish autocomplete (chain.map Slot.release) =
        .ok (steps', left.map Slot.release) ∧
      steps'.map (·.insert) = steps.map (·.insert) ∧
      pieces (chain.map Slot.release) steps' = (pieces chain steps).map Piece.release := by
  obtain ⟨_, _, hf', ht, hstop⟩ := h.finish autocomplete
  obtain ⟨rfl, rfl⟩ := Prod.mk.inj (Except.ok.inj (hf'.symm.trans hf))
  obtain ⟨steps', ht', hinsert, hpieces⟩ := ht.release
  refine ⟨steps', ?_, hinsert, hpieces⟩
  cases autocomplete with
  | false =>
    obtain ⟨rfl, rfl⟩ := Prod.mk.inj (Except.ok.inj hf)
    obtain rfl := List.map_eq_nil_iff.mp hinsert
    exact finish_false _
  | true => exact ht'.finish h.release ((ht.regular h).autocomplete_release (hstop rfl))

/-- **Runs through a released chain.** The events show the same, the same literals are completed,
and the pieces are released. -/
theorem Regular.run_release (h : chain.Regular) {t : CaretText} {r : Run}
    (hr : chain.run t autocomplete = .ok r) :
    ∃ r', Chain.run (chain.map Slot.release) t autocomplete = .ok r' ∧
      r'.events.map Event.shown = r.events.map Event.shown ∧
      r'.completed.map (·.insert) = r.completed.map (·.insert) ∧
      r'.left = r.left.map Slot.release ∧
      r'.pieces (chain.map Slot.release) = (r.pieces chain).map Piece.release := by
  obtain ⟨events, reached, -, ht⟩ := h.feed t.marked
  obtain ⟨steps, left, hf, -⟩ := (ht.regular h).finish (autocomplete && t.caretAtEnd)
  obtain rfl := Except.ok.inj ((h.run_of_trace ht hf).symm.trans hr)
  obtain ⟨events', ht', hshown, hpieces⟩ := ht.release
  obtain ⟨steps', hf', hinsert, hcompleted⟩ := (ht.regular h).finish_release hf
  exact ⟨_, h.release.run_of_trace ht' hf', hshown, hinsert, rfl, hpieces _ _ hcompleted⟩

end Chain

/-- **Curly brackets decide what is extracted**, and nothing else. A format without its curly brackets
is a format, whose normal form lacks nothing but them; the scan of it, character by character, finds the
slots that the scan of the normal form finds, with each fixed slot made free. So the chain is the chain of
the format with each fixed slot made free; placeholder and lengths of texts are the same. Both masks make
the same of every text, wherever its caret stands, with completion and without it, and whatever the
weights; but what fixed slots wrote is not extracted any longer. -/
theorem braces_decide_extraction {p : Text} {chain : Chain} (h : Chain.compile p = .ok chain) :
    (∃ normal found found', normalize p = .ok normal ∧
      normalize (withoutBraces p) = .ok (withoutBraces normal) ∧
      Chain.scan .start normal = .ok found ∧ found.chain = chain ∧
      Chain.scan .start (withoutBraces normal) = .ok found' ∧
      found'.chain = found.chain.map Slot.release) ∧
    Chain.compile (withoutBraces p) = .ok (chain.map Slot.release) ∧
    Chain.placeholder (chain.map Slot.release) = chain.placeholder ∧
    Chain.minTextLength (chain.map Slot.release) = chain.minTextLength ∧
    Chain.maxTextLength (chain.map Slot.release) = chain.maxTextLength ∧
    ∀ (w : Weights) (t : CaretText) (autocomplete : Bool), ∃ m m' run r,
      Mask.compile p w = .ok m ∧ Mask.compile (withoutBraces p) w = .ok m' ∧
      chain.run t autocomplete = .ok run ∧ m.apply t autocomplete = .ok r ∧
      r.formatted.chars = (run.pieces chain).flatMap (·.text) ∧
      r.extracted = (run.pieces chain).flatMap Piece.extracted ∧
      m'.apply t autocomplete = .ok { r with extracted :=
        ((run.pieces chain).filter (·.slot.kind != .fixed)).flatMap Piece.extracted } := by
  obtain ⟨normal, found, hnormal, hscan, rfl⟩ := Chain.compile_eq_ok_iff.mp h
  obtain ⟨found₀, found', hscan₀, hscan', hchain⟩ := Chain.scan_withoutBraces hnormal
  obtain rfl := Except.ok.inj (hscan₀.symm.trans hscan)
  have hnormal' := normalize_withoutBraces hnormal
  have hrelease : Chain.compile (withoutBraces p) = .ok (found₀.chain.map Slot.release) :=
    Chain.compile_eq_ok_iff.mpr ⟨_, found', hnormal', hscan', hchain⟩
  have hreg := (linked_of_compile h).regular
  refine ⟨⟨normal, found₀, found', hnormal, hnormal', hscan, rfl, hscan', hchain⟩, hrelease,
    placeholder_release _, count_release rfl _, count_release rfl _, ?_⟩
  intro w t autocomplete
  have hm : Mask.compile p w = .ok ⟨p, w, found₀.chain⟩ :=
    Mask.compile_eq_ok_iff.mpr ⟨h, rfl, rfl⟩
  have hm' : Mask.compile (withoutBraces p) w =
      .ok ⟨withoutBraces p, w, found₀.chain.map Slot.release⟩ :=
    Mask.compile_eq_ok_iff.mpr ⟨hrelease, rfl, rfl⟩
  obtain ⟨run, -, hrun, -⟩ := hreg.run t autocomplete
  obtain ⟨run', hrun', hshown, hcompleted, hleft, hpieces⟩ := hreg.run_release hrun
  obtain ⟨-, hwritten, hextracted⟩ := hreg.word hrun
  obtain ⟨-, -, hextracted'⟩ := hreg.release.word hrun'
  rw [hpieces, Piece.flatMap_extracted_release] at hextracted'
  have hfilled : run'.left.any Slot.isMandatory = run.left.any Slot.isMandatory := by
    rw [hleft, List.any_map]
    simp only [Function.comp_def, Slot.isMandatory_release]
  refine ⟨_, _, run, run.outcome w, hm, hm', hrun, Mask.apply_eq hreg hrun, hwritten.symm,
    hextracted.symm, ?_⟩
  rw [hextracted', ← Run.outcome_congr w hshown hcompleted hfilled]
  exact Mask.apply_eq hreg.release hrun'

/-- An escaped bracket and an escaped escape mark in a fixed group, which are inserted in front of a
letter that finds no place: without the curly brackets around them they are written, but not extracted,
and the escape mark still does not escape the bracket behind it. -/
theorem braces_decide_extraction_escaped :
    ∃ (m m' : Mask) (r : Result),
      Mask.compile ['[', '0', ']', '\x7b', '\\', '\x7d', '\\', '\\', '\x7d', '[', '0', ']'] {} =
        .ok m ∧
      Mask.compile ['[', '0', ']', '\\', '\x7d', '\\', '\\', '[', '0', ']'] {} = .ok m' ∧
      m.chain = [.value .numeric, .fixed '\x7d', .fixed '\\', .value .numeric, .endOfLine] ∧
      m'.chain = [.value .numeric, .free '\x7d', .free '\\', .value .numeric, .endOfLine] ∧
      m.apply (.atEnd ['1', 'x', '5']) true = .ok r ∧
      r.formatted.chars = ['1', '\x7d', '\\', '5'] ∧ r.extracted = ['1', '\x7d', '\\', '5'] ∧
      m'.apply (.atEnd ['1', 'x', '5']) true = .ok { r with extracted := ['1', '5'] } := by
  have hcompile : Chain.compile ['[', '0', ']', '\x7b', '\\', '\x7d', '\\', '\\', '\x7d', '[', '0',
      ']'] = .ok [.value .numeric, .fixed '\x7d', .fixed '\\', .value .numeric, .endOfLine] := rfl
  obtain ⟨-, -, -, -, -, happly⟩ := braces_decide_extraction hcompile
  obtain ⟨m, m', run, r, hm, hm', hrun, hr, hwritten, hextracted, hr'⟩ :=
    happly {} (.atEnd ['1', 'x', '5']) true
  obtain rfl := Except.ok.inj hm
  obtain rfl := Except.ok.inj hm'
  obtain rfl := Except.ok.inj hrun
  exact ⟨_, _, r, rfl, rfl, rfl, rfl, hr, hwritten, hextracted, hr'⟩

end TextMask
