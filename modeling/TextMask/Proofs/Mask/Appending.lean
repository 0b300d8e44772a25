import TextMask.Proofs.Mask.AtEnd

/-!
# Appending to a text

More text never takes back what was there. If nothing is completed, the run over the longer text
begins with the run over the shorter one. With completion, the shorter run has already written the
literals that come next, and the longer run, which has not, still has to pass them: it consumes,
inserts or completes each of them before it writes anything else.

* `Trail.unique`: completion up to a slot that has nothing to write has one result;
* `Chain.Anticipates`: what was completed comes also in another way, before anything else;
* `Trail.anticipates`: completed literals are passed by every run behind them;
* `apply_append_extends`: formatted text, extracted value and completeness of a longer text.
-/

namespace TextMask

open Chain

namespace Chain

/-- `Anticipates steps left events steps' left'`: what the steps write and extract is written and
extracted by the events and then the other steps, before anything else, and what they leave is all
that can be left then. -/
structure Anticipates (steps : List Step) (left : Chain) (events : List Event)
    (steps' : List Step) (left' : Chain) : Prop where
  written : (steps.flatMap fun s => s.insert.getD []) <+:
    events.flatMap Event.written ++ steps'.flatMap fun s => s.insert.getD []
  extracted : (steps.flatMap fun s => s.value.getD []) <+:
    events.flatMap Event.extracted ++ steps'.flatMap fun s => s.value.getD []
  left_suffix : left' <:+ left

variable {chain reached left left' : Chain} {marked : List (Char × Bool)} {events : List Event}
  {steps steps' : List Step} {step : Step} {c : Char} {b : Bool}

theorem Trail.suffix (ht : Trail chain steps left) : left <:+ chain := by
  induction ht with
  | stop => exact List.suffix_refl _
  | fixed d _ ih => exact ih.trans (List.suffix_cons _ _)
  | free d _ ih => exact ih.trans (List.suffix_cons _ _)

/-- **Completion has one result**: it goes on to a slot that has nothing to write. -/
theorem Trail.unique (ht : Trail chain steps left) (h : chain.Regular)
    (hstop : left.autocomplete = .ok none) (ht' : Trail chain steps' left')
    (hstop' : left'.autocomplete = .ok none) : steps = steps' ∧ left = left' := by
  have hfinish := (ht.finish h hstop).symm.trans (ht'.finish h hstop')
  exact Prod.mk.inj (Except.ok.inj hfinish)

/-- Where nothing was completed, nothing has to come. -/
theorem Anticipates.of_suffix (h : left' <:+ left) : Anticipates [] left events steps' left' :=
  ⟨List.nil_prefix, List.nil_prefix, h⟩

theorem Anticipates.refl (steps : List Step) (left : Chain) :
    Anticipates steps left [] steps left :=
  ⟨List.prefix_refl _, List.prefix_refl _, List.suffix_refl _⟩

/-- An event that writes and extracts what a step does, in front of what comes anyway. -/
theorem Anticipates.cons {s : Step} {e : Event} (h : Anticipates steps left events steps' left')
    (hwritten : e.written = s.insert.getD []) (hextracted : e.extracted = s.value.getD []) :
    Anticipates (s :: steps) left (e :: events) steps' left' := by
  refine ⟨?_, ?_, h.left_suffix⟩
  · rw [List.flatMap_cons, List.flatMap_cons, List.append_assoc, hwritten]
    exact (List.prefix_append_right_inj _).mpr h.written
  · rw [List.flatMap_cons, List.flatMap_cons, List.append_assoc, hextracted]
    exact (List.prefix_append_right_inj _).mpr h.extracted

/-- A slot that does not drop a character is left with it or without it. -/
theorem Trace.of_offer (ht : Trace chain ((c, b) :: marked) events left)
    (ho : Offer c chain (some step)) :
    ∃ marked' events', events = ⟨b, some step⟩ :: events' ∧
      Trace step.next marked' events' left := by
  cases hc : step.consumed with
  | true =>
    obtain ⟨events', rfl, ht'⟩ := ht.of_take ho hc
    exact ⟨marked, events', rfl, ht'⟩
  | false =>
    obtain ⟨events', rfl, ht'⟩ := ht.of_pass ho hc
    exact ⟨_, events', rfl, ht'⟩

/-- **Completed literals are passed by every run behind them**: a character is used up by them, or
they are written in front of it, and if no character comes, they are completed. -/
theorem Trail.anticipates (ht : Trail chain steps left) (h : chain.Regular)
    (hstop : left.autocomplete = .ok none) (htrace : Trace chain marked events reached)
    (ht' : Trail reached steps' left') (hstop' : left'.autocomplete = .ok none) :
    Anticipates steps left events steps' left' := by
  induction ht generalizing marked events with
  | stop chain => exact .of_suffix (ht'.suffix.trans htrace.suffix)
  | @fixed d rest left steps ht ih =>
    cases marked with
    | nil =>
      cases htrace
      obtain ⟨rfl, rfl⟩ := (Trail.fixed d ht).unique h hstop ht' hstop'
      exact .refl _ _
    | cons p marked =>
      obtain ⟨marked', events', rfl, hrest⟩ := htrace.of_offer (.fixed d rest)
      cases h with
      | fixed _ h => exact (ih h hstop hrest).cons rfl rfl
  | @free d rest left steps ht ih =>
    cases marked with
    | nil =>
      cases htrace
      obtain ⟨rfl, rfl⟩ := (Trail.free d ht).unique h hstop ht' hstop'
      exact .refl _ _
    | cons p marked =>
      obtain ⟨marked', events', rfl, hrest⟩ := htrace.of_offer (.free d rest)
      cases h with
      | free _ h => exact (ih h hstop hrest).cons rfl rfl

/-- **What is completed behind a text comes first behind more text**, for either setting of
completion. -/
theorem Trace.anticipates {autocomplete : Bool} (ht : Trace chain marked events reached)
    (h : chain.Regular) (hf : chain.finish autocomplete = .ok (steps, left))
    (hf' : reached.finish autocomplete = .ok (steps', left')) :
    Anticipates steps left events steps' left' := by
  cases autocomplete with
  | false =>
    obtain ⟨rfl, rfl⟩ := Prod.mk.inj (Except.ok.inj hf)
    obtain ⟨rfl, rfl⟩ := Prod.mk.inj (Except.ok.inj hf')
    exact .of_suffix ht.suffix
  | true =>
    obtain ⟨_, _, hs, htrail, hstop⟩ := h.finish true
    obtain ⟨_, _, hs', htrail', hstop'⟩ := (ht.regular h).finish true
    obtain ⟨rfl, rfl⟩ := Prod.mk.inj (Except.ok.inj (hs.symm.trans hf))
    obtain ⟨rfl, rfl⟩ := Prod.mk.inj (Except.ok.inj (hs'.symm.trans hf'))
    exact htrail.anticipates h (hstop rfl) ht htrail' (hstop' rfl)

end Chain

/-- **More text takes nothing back.** For each text with more text behind it, with the caret at the
end and either setting of completion: the formatted text and the extracted value of the longer one
begin with those of the shorter one, and if the shorter one is complete, so is the longer one. -/
theorem apply_append_extends {m : Mask} {format : Text} {w : Weights}
    (h : Mask.compile format w = .ok m) (text more : Text) (autocomplete : Bool) :
    ∃ r r', m.apply (.atEnd text) autocomplete = .ok r ∧
      m.apply (.atEnd (text ++ more)) autocomplete = .ok r' ∧
      r.formatted.chars <+: r'.formatted.chars ∧ r.extracted <+: r'.extracted ∧
      (r.complete = true → r'.complete = true) := by
  have hreg := Mask.regular_of_compile h
  obtain ⟨events, mid, -, ht⟩ := hreg.feed (text.map (·, true))
  have hmid := ht.regular hreg
  obtain ⟨events', reached, -, ht'⟩ := hmid.feed (more.map (·, true))
  obtain ⟨steps, left, hf, -⟩ := hmid.finish autocomplete
  obtain ⟨steps', left', hf', -⟩ := (ht'.regular hmid).finish autocomplete
  have hlong := ht.append ht'
  rw [← List.map_append] at hlong
  obtain ⟨r, hr, -, hformatted, hextracted, hcomplete⟩ := apply_of_trace hreg ht hf
  obtain ⟨r', hr', -, hformatted', hextracted', hcomplete'⟩ := apply_of_trace hreg hlong hf'
  have hanticipates := ht'.anticipates hmid hf hf'
  refine ⟨r, r', hr, hr', ?_, ?_, fun hc => ?_⟩
  · rw [hformatted, hformatted', List.flatMap_append, List.append_assoc]
    exact (List.prefix_append_right_inj _).mpr hanticipates.written
  · rw [hextracted, hextracted', List.flatMap_append, List.append_assoc]
    exact (List.prefix_append_right_inj _).mpr hanticipates.extracted
  · rw [hcomplete, Bool.not_eq_true', List.any_eq_false] at hc
    rw [hcomplete', Bool.not_eq_true', List.any_eq_false]
    intro s hs
    exact hc s (hanticipates.left_suffix.subset hs)

/-- A date: a stop and a hyphen are completed behind a digit; then the stop is typed, another
character stands where the hyphen does, and a digit follows. -/
theorem apply_append_extends_decimal :
    ∃ (m : Mask) (r r' : Result),
      Mask.compile ['[', '0', ']', '\x7b', '.', '\x7d', '-', '[', '9', ']'] {} = .ok m ∧
      m.apply (.atEnd ['1']) true = .ok r ∧ m.apply (.atEnd ['1', '.', '5', 'x']) true = .ok r' ∧
      r.formatted.chars = ['1', '.', '-'] ∧ r'.formatted.chars = ['1', '.', '-', '5'] ∧
      r.formatted.chars <+: r'.formatted.chars ∧ r.extracted <+: r'.extracted ∧
      r.complete = true ∧ r'.complete = true := by
  have hcompile : Mask.compile ['[', '0', ']', '\x7b', '.', '\x7d', '-', '[', '9', ']'] {} =
      .ok ⟨_, {}, [.value .numeric, .fixed '.', .free '-', .optional .numeric, .endOfLine]⟩ := rfl
  obtain ⟨r, r', hr, hr', hformatted, hextracted, hcomplete⟩ :=
    apply_append_extends hcompile ['1'] ['.', '5', 'x'] true
  obtain rfl := Except.ok.inj hr
  obtain rfl := Except.ok.inj hr'
  exact ⟨_, _, _, hcompile, rfl, rfl, rfl, rfl, hformatted, hextracted, rfl, hcomplete rfl⟩

end TextMask
