import TextMask.Proofs.Chain.Regular

/-!
# Traces

A trace is a run said offer by offer: each offer drops a character, uses it up, or passes a slot
and leaves the character to the next one. What holds of every run is shown by induction on traces.

* `Chain.Trace`: the offers of the characters of a text;
* `Chain.Trail`: the literals that are completed after them;
* `Regular.feed`, `Regular.trail`: on a regular chain both loops end, with such a trace and trail;
* `Trace.unique`: a text has one trace;
* `Regular.run`: hence every run through a regular chain ends;
* `feed_append`, `feed_remark`: a text can be fed in two portions, and marks decide nothing.
-/

namespace TextMask.Chain

/-- `Trace chain text events left`: offering the marked characters of the text, one after the
other, makes the events and leaves the last chain. -/
inductive Trace : Chain → List (Char × Bool) → List Event → Chain → Prop
  | done (chain : Chain) : Trace chain [] [] chain
  | drop {chain left : Chain} {c : Char} {b : Bool} {text : List (Char × Bool)}
      {events : List Event} :
      Offer c chain none → Trace chain text events left →
      Trace chain ((c, b) :: text) (⟨b, none⟩ :: events) left
  | consume {chain left : Chain} {c : Char} {b : Bool} {text : List (Char × Bool)}
      {events : List Event} {step : Step} :
      Offer c chain (some step) → step.consumed = true → Trace step.next text events left →
      Trace chain ((c, b) :: text) (⟨b, some step⟩ :: events) left
  | pass {chain left : Chain} {c : Char} {b : Bool} {text : List (Char × Bool)}
      {events : List Event} {step : Step} :
      Offer c chain (some step) → step.consumed = false →
      Trace step.next ((c, b) :: text) events left →
      Trace chain ((c, b) :: text) (⟨b, some step⟩ :: events) left

/-- `Trail chain steps left`: the chain begins with literals, which the steps write. -/
inductive Trail : Chain → List Step → Chain → Prop
  | stop (chain : Chain) : Trail chain [] chain
  | fixed (d : Char) {rest left : Chain} {steps : List Step} :
      Trail rest steps left →
      Trail (.fixed d :: rest) (⟨some [d], false, some [d], rest⟩ :: steps) left
  | free (d : Char) {rest left : Chain} {steps : List Step} :
      Trail rest steps left →
      Trail (.free d :: rest) (⟨some [d], false, none, rest⟩ :: steps) left

variable {c : Char} {chain mid left rest : Chain} {s : Slot} {step : Step}
  {text text' : List (Char × Bool)} {events events' : List Event} {steps : List Step}

/-! ### What every trace keeps -/

theorem Trace.regular (ht : Trace chain text events left) (h : chain.Regular) :
    left.Regular := by
  induction ht with
  | done => exact h
  | drop ho _ ih => exact ih h
  | consume ho _ _ ih => exact ih (ho.regular_next h)
  | pass ho _ _ ih => exact ih (ho.regular_next h)

theorem Trace.suffix (ht : Trace chain text events left) : left <:+ chain := by
  induction ht with
  | done => exact List.suffix_refl _
  | drop ho _ ih => exact ih
  | consume ho _ _ ih => exact ih.trans ho.next_suffix
  | pass ho _ _ ih => exact ih.trans ho.next_suffix

theorem Trail.regular (ht : Trail chain steps left) (h : chain.Regular) : left.Regular := by
  induction ht with
  | stop => exact h
  | fixed d _ ih => cases h; exact ih ‹_›
  | free d _ ih => cases h; exact ih ‹_›

theorem Trace.append (ht : Trace chain text events mid) (ht' : Trace mid text' events' left) :
    Trace chain (text ++ text') (events ++ events') left := by
  induction ht with
  | done => exact ht'
  | drop ho _ ih => exact .drop ho (ih ht')
  | consume ho hc _ ih => exact .consume ho hc (ih ht')
  | pass ho hc _ ih => exact .pass ho hc (ih ht')

/-- A character that the first slot takes is gone. -/
theorem Trace.of_take {b : Bool} (ht : Trace chain ((c, b) :: text) events left)
    (ho : Offer c chain (some step)) (hc : step.consumed = true) :
    ∃ rest, events = ⟨b, some step⟩ :: rest ∧ Trace step.next text rest left := by
  cases ht with
  | drop ho' _ => cases ho.unique ho'
  | consume ho' _ ht =>
    obtain rfl := Option.some.inj (ho.unique ho')
    exact ⟨_, rfl, ht⟩
  | pass ho' hc' _ =>
    obtain rfl := Option.some.inj (ho.unique ho')
    cases hc.symm.trans hc'

/-- A character at which the first slot is passed is offered to the next one. -/
theorem Trace.of_pass {b : Bool} (ht : Trace chain ((c, b) :: text) events left)
    (ho : Offer c chain (some step)) (hc : step.consumed = false) :
    ∃ rest, events = ⟨b, some step⟩ :: rest ∧ Trace step.next ((c, b) :: text) rest left := by
  cases ht with
  | drop ho' _ => cases ho.unique ho'
  | consume ho' hc' _ =>
    obtain rfl := Option.some.inj (ho.unique ho')
    cases hc.symm.trans hc'
  | pass ho' _ ht =>
    obtain rfl := Option.some.inj (ho.unique ho')
    exact ⟨_, rfl, ht⟩

/-- **A text has one trace**, since each offer has one answer. -/
theorem Trace.unique {left' : Chain} (ht : Trace chain text events left)
    (ht' : Trace chain text events' left') : events = events' ∧ left = left' := by
  induction ht generalizing events' with
  | done =>
    cases ht'
    exact ⟨rfl, rfl⟩
  | drop ho _ ih =>
    cases ht' with
    | drop _ ht' =>
      obtain ⟨rfl, rfl⟩ := ih ht'
      exact ⟨rfl, rfl⟩
    | consume ho' _ _ => cases ho.unique ho'
    | pass ho' _ _ => cases ho.unique ho'
  | consume ho hc _ ih =>
    obtain ⟨rest, rfl, hrest⟩ := ht'.of_take ho hc
    obtain ⟨rfl, rfl⟩ := ih hrest
    exact ⟨rfl, rfl⟩
  | pass ho hc _ ih =>
    obtain ⟨rest, rfl, hrest⟩ := ht'.of_pass ho hc
    obtain ⟨rfl, rfl⟩ := ih hrest
    exact ⟨rfl, rfl⟩

/-! ### The offers of one character -/

theorem settle_drop (ha : accept c (s :: rest) = .ok none) :
    settle c (s :: rest) = .ok ([none], s :: rest) := by
  rw [settle, ha]; rfl

theorem settle_consume (ha : accept c (s :: rest) = .ok (some step))
    (hc : step.consumed = true) : settle c (s :: rest) = .ok ([some step], step.next) := by
  rw [settle, ha]
  show (if step.consumed then pure ([some step], step.next) else _) = _
  rw [hc]; rfl

/-- **One character ends.** A regular chain deals with a character, and every trace of the text
behind it extends to a trace with it. -/
theorem Regular.settle (h : chain.Regular) (c : Char) :
    ∃ outcomes next, chain.settle c = .ok (outcomes, next) ∧ next.Regular ∧
      ∀ {b text events left}, Trace next text events left →
        Trace chain ((c, b) :: text) (outcomes.map (⟨b, ·⟩) ++ events) left := by
  induction chain with
  | nil => exact absurd rfl h.ne_nil
  | cons s rest ih =>
    obtain ⟨outcome, ha, ho⟩ := h.offer c
    cases outcome with
    | none => exact ⟨_, _, settle_drop ha, h, fun ht => .drop ho ht⟩
    | some step =>
      have hn := ho.regular_next h
      cases hc : step.consumed with
      | true => exact ⟨_, _, settle_consume ha hc, hn, fun ht => .consume ho hc ht⟩
      | false =>
        -- a slot that is passed hands the character to the rest, which is shorter
        obtain ⟨s', hs', he, -⟩ := ho.eq_cons_of_pass hc
        obtain ⟨rfl, hrest⟩ := List.cons.inj hs'
        rw [hrest] at ih
        obtain ⟨outcomes, next, hs, hr, htr⟩ := ih hn
        have hpass := settle_pass ha hc he
        rw [hs] at hpass
        exact ⟨_, _, hpass, hr, fun ht => .pass ho hc (htr ht)⟩

/-! ### The offers of a text -/

theorem feed_cons {b : Bool} {outcomes : List (Option Step)}
    (hs : chain.settle c = .ok (outcomes, mid)) (hf : mid.feed text = .ok (events, left)) :
    chain.feed ((c, b) :: text) = .ok (outcomes.map (⟨b, ·⟩) ++ events, left) := by
  rw [feed, hs]
  show (mid.feed text >>= fun r => pure (outcomes.map (⟨b, ·⟩) ++ r.1, r.2)) = _
  rw [hf]; rfl

/-- **Feeding ends.** A regular chain deals with every text, offer by offer. -/
theorem Regular.feed (h : chain.Regular) (text : List (Char × Bool)) :
    ∃ events left, chain.feed text = .ok (events, left) ∧ Trace chain text events left := by
  induction text generalizing chain with
  | nil => exact ⟨[], chain, rfl, .done chain⟩
  | cons p text ih =>
    obtain ⟨outcomes, next, hs, hn, htr⟩ := h.settle p.1
    obtain ⟨events, left, hf, ht⟩ := ih hn
    exact ⟨_, left, feed_cons hs hf, htr ht⟩

/-- Feeding has one result, so its trace is known. -/
theorem Regular.trace_of_feed (h : chain.Regular) (hf : chain.feed text = .ok (events, left)) :
    Trace chain text events left := by
  obtain ⟨events', left', hf', ht⟩ := h.feed text
  obtain ⟨rfl, rfl⟩ := Prod.mk.inj (Except.ok.inj (hf.symm.trans hf'))
  exact ht

/-- Every trace is the trace of feeding. -/
theorem Regular.feed_of_trace (h : chain.Regular) (ht : Trace chain text events left) :
    chain.feed text = .ok (events, left) := by
  obtain ⟨events', left', hf, ht'⟩ := h.feed text
  obtain ⟨rfl, rfl⟩ := ht.unique ht'
  exact hf

/-- A text can be fed in two portions. -/
theorem feed_append (hf : chain.feed text = .ok (events, mid))
    (hf' : mid.feed text' = .ok (events', left)) :
    chain.feed (text ++ text') = .ok (events ++ events', left) := by
  induction text generalizing chain events with
  | nil =>
    obtain ⟨rfl, rfl⟩ := Prod.mk.inj (Except.ok.inj hf)
    exact hf'
  | cons p text ih =>
    obtain ⟨⟨outcomes, next⟩, hs, hf⟩ := Except.bind_eq_ok_iff.mp hf
    obtain ⟨⟨rest, mid'⟩, hr, hf⟩ := Except.bind_eq_ok_iff.mp hf
    obtain ⟨rfl, rfl⟩ := Prod.mk.inj (Except.ok.inj hf)
    rw [List.append_assoc]
    exact feed_cons hs (ih hr)

/-- Marks decide nothing: they are noted in the events and left alone otherwise. -/
theorem feed_remark (hm : text.map (·.1) = text'.map (·.1))
    (hf : chain.feed text = .ok (events, left)) :
    ∃ events', chain.feed text' = .ok (events', left) ∧
      events'.map (·.step) = events.map (·.step) := by
  induction text generalizing chain text' events with
  | nil =>
    obtain rfl : text' = [] := List.map_eq_nil_iff.mp hm.symm
    exact ⟨events, hf, rfl⟩
  | cons p text ih =>
    obtain ⟨c, b⟩ := p
    obtain ⟨⟨c', b'⟩, text'', rfl, hc, hm'⟩ := List.map_eq_cons_iff.mp hm.symm
    obtain rfl : c' = c := hc
    obtain ⟨⟨outcomes, next⟩, hs, hf⟩ := Except.bind_eq_ok_iff.mp hf
    obtain ⟨⟨rest, left'⟩, hr, hf⟩ := Except.bind_eq_ok_iff.mp hf
    obtain ⟨rfl, rfl⟩ := Prod.mk.inj (Except.ok.inj hf)
    obtain ⟨events'', hf'', hstep⟩ := ih hm'.symm hr
    refine ⟨_, feed_cons hs hf'', ?_⟩
    rw [List.map_append, List.map_append, hstep, List.map_map, List.map_map]
    rfl

/-! ### Completion -/

theorem autocomplete_fixed (d : Char) (h : rest ≠ []) :
    autocomplete (.fixed d :: rest) = .ok (some ⟨some [d], false, some [d], rest⟩) := by
  show some <$> (Slot.successor (.fixed d) rest).map _ = _
  rw [successor_of_ne_nil rfl h]; rfl

theorem autocomplete_free (d : Char) (h : rest ≠ []) :
    autocomplete (.free d :: rest) = .ok (some ⟨some [d], false, none, rest⟩) := by
  show some <$> (Slot.successor (.free d) rest).map _ = _
  rw [successor_of_ne_nil rfl h]; rfl

theorem trail_fixed (d : Char) (h : rest ≠ []) (ht : trail rest = .ok (steps, left)) :
    trail (.fixed d :: rest) = .ok (⟨some [d], false, some [d], rest⟩ :: steps, left) := by
  rw [trail_cons (autocomplete_fixed d h) rfl, ht]; rfl

theorem trail_free (d : Char) (h : rest ≠ []) (ht : trail rest = .ok (steps, left)) :
    trail (.free d :: rest) = .ok (⟨some [d], false, none, rest⟩ :: steps, left) := by
  rw [trail_cons (autocomplete_free d h) rfl, ht]; rfl

/-- **Completion ends.** A regular chain completes the literals that it begins with, and stops at
a slot that has nothing to write. -/
theorem Regular.trail (h : chain.Regular) :
    ∃ steps left, chain.trail = .ok (steps, left) ∧ Trail chain steps left ∧
      left.autocomplete = .ok none := by
  induction h with
  | endOfLine => exact ⟨[], _, rfl, .stop _, rfl⟩
  | ellipsis k => exact ⟨[], _, rfl, .stop _, rfl⟩
  | value k hr ih => exact ⟨[], _, rfl, .stop _, rfl⟩
  | optional k hr ih => exact ⟨[], _, rfl, .stop _, rfl⟩
  | fixed d hr ih =>
    obtain ⟨steps, left, htr, ht, hl⟩ := ih
    exact ⟨_, left, trail_fixed d hr.ne_nil htr, .fixed d ht, hl⟩
  | free d hr ih =>
    obtain ⟨steps, left, htr, ht, hl⟩ := ih
    exact ⟨_, left, trail_free d hr.ne_nil htr, .free d ht, hl⟩

/-- A slot has nothing to write if it is no literal. -/
theorem Regular.autocomplete_eq_none_iff (h : chain.Regular) :
    chain.autocomplete = .ok none ↔ chain.takeWhile Slot.isLiteral = [] := by
  cases h with
  | fixed d hr =>
    rw [autocomplete_fixed d hr.ne_nil]
    exact iff_of_false nofun (List.cons_ne_nil _ _)
  | free d hr =>
    rw [autocomplete_free d hr.ne_nil]
    exact iff_of_false nofun (List.cons_ne_nil _ _)
  | endOfLine | ellipsis _ | value _ _ | optional _ _ => exact iff_of_true rfl rfl

/-- A filled chain has no literal to complete. -/
theorem Regular.autocomplete_of_filled (h : chain.Regular)
    (hfilled : chain.any Slot.isMandatory = false) : chain.autocomplete = .ok none := by
  cases h with
  | fixed d _ => cases hfilled
  | free d _ => cases hfilled
  | endOfLine | ellipsis _ | value _ _ | optional _ _ => rfl

/-! ### Whole runs -/

theorem run_completed {t : CaretText} {autocomplete : Bool}
    (ha : (autocomplete && t.caretAtEnd) = true)
    (hf : chain.feed t.marked = .ok (events, mid)) (ht : mid.trail = .ok (steps, left)) :
    chain.run t autocomplete = .ok ⟨events, steps, left⟩ := by
  rw [Chain.run, hf, t.lastBeforeCaret_eq]
  show (if autocomplete && t.caretAtEnd then
    (mid.trail >>= fun r => pure (⟨events, r.1, r.2⟩ : Run)) else pure ⟨events, [], mid⟩) = _
  rw [ha, ht]; rfl

theorem run_plain {t : CaretText} {autocomplete : Bool}
    (ha : (autocomplete && t.caretAtEnd) = false) (hf : chain.feed t.marked = .ok (events, mid)) :
    chain.run t autocomplete = .ok ⟨events, [], mid⟩ := by
  rw [Chain.run, hf, t.lastBeforeCaret_eq]
  show (if autocomplete && t.caretAtEnd then
    (mid.trail >>= fun r => pure (⟨events, r.1, r.2⟩ : Run)) else pure ⟨events, [], mid⟩) = _
  rw [ha]; rfl

/-- **Runs end.** A run through a regular chain is a trace and the trail behind it. -/
theorem Regular.run (h : chain.Regular) (t : CaretText) (autocomplete : Bool) :
    ∃ r reached, chain.run t autocomplete = .ok r ∧
      chain.feed t.marked = .ok (r.events, reached) ∧ Trail reached r.completed r.left ∧
      ((autocomplete && t.caretAtEnd) = false → r.completed = []) := by
  obtain ⟨events, reached, hf, ht⟩ := h.feed t.marked
  cases ha : autocomplete && t.caretAtEnd with
  | true =>
    obtain ⟨steps, left, htr, htl, -⟩ := (ht.regular h).trail
    exact ⟨_, reached, run_completed ha hf htr, hf, htl, fun hn => nomatch hn⟩
  | false => exact ⟨_, reached, run_plain ha hf, hf, .stop reached, fun _ => rfl⟩

end TextMask.Chain
