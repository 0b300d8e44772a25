import Mathlib.Tactic.Ring
import TextMask.Proofs.Mask.CaretLaw

/-!
# What an affinity counts

The affinity of a text is the sum of the scores of the events of its run. Four counts of these
events are all that it needs, and the counts know neither the weights nor the caret: a run does the
same things whatever they score, and wherever the caret stands.

* `Tally`: the counts, of a list of events or of a run;
* `Tally.affinity_ofEvents`: the scores of events are scored counts;
* `Trace.consumed_add_dropped`, `Trace.inserted_add_skipped_le`, `Trace.length_written`: what the
  counts of a run have to do with the text, the chain and the output;
* `Trace.written_of_exact`: a text that is neither dropped from nor added to is the output;
* `Tally.affinity_standard`: with the standard weights, affinity falls short of the length of the
  text by what the counts say;
* `affinity_accounting`: all of this for compiled masks.
-/

namespace TextMask

open Chain

/-! ### Counts -/

/-- How often each thing happens in a run: characters that are consumed and that are dropped,
literals that are written in front of a character, and optional slots that are left empty. -/
structure Tally where
  consumed : Nat
  dropped : Nat
  inserted : Nat
  skipped : Nat
  deriving DecidableEq, Repr

namespace Tally

/-- The counts of some events. -/
def ofEvents (events : List Event) : Tally where
  consumed := events.countP Event.isConsumed
  dropped := events.countP Event.isDropped
  inserted := events.countP Event.isInserted
  skipped := events.countP Event.isSkipped

/-- The score of the counts. -/
def affinity (w : Weights) (n : Tally) : Int :=
  w.consumed * n.consumed + w.notConsumed * (n.inserted + n.skipped) + w.dropped * n.dropped

theorem ofEvents_drop (b : Bool) (events : List Event) :
    ofEvents (⟨b, none⟩ :: events) =
      { ofEvents events with dropped := (ofEvents events).dropped + 1 } := by
  simp [ofEvents, List.countP_cons, Event.isConsumed, Event.isDropped, Event.isInserted,
    Event.isSkipped]

variable {step : Step}

theorem ofEvents_consume (b : Bool) (hc : step.consumed = true) (events : List Event) :
    ofEvents (⟨b, some step⟩ :: events) =
      { ofEvents events with consumed := (ofEvents events).consumed + 1 } := by
  simp [ofEvents, Event.isConsumed, Event.isDropped, Event.isInserted, Event.isSkipped, hc]

theorem ofEvents_insert (b : Bool) (hc : step.consumed = false) (hi : step.insert.isSome = true)
    (events : List Event) :
    ofEvents (⟨b, some step⟩ :: events) =
      { ofEvents events with inserted := (ofEvents events).inserted + 1 } := by
  have hn : step.insert.isNone = false := by
    cases h : step.insert <;> simp_all
  simp [ofEvents, Event.isConsumed, Event.isDropped, Event.isInserted, Event.isSkipped, hc, hi, hn]

theorem ofEvents_skip (b : Bool) (hc : step.consumed = false) (hi : step.insert.isSome = false)
    (events : List Event) :
    ofEvents (⟨b, some step⟩ :: events) =
      { ofEvents events with skipped := (ofEvents events).skipped + 1 } := by
  have hn : step.insert.isNone = true := by
    cases h : step.insert <;> simp_all
  simp [ofEvents, Event.isConsumed, Event.isDropped, Event.isInserted, Event.isSkipped, hc, hi, hn]

/-- **The scores of events are scored counts**, since an event is of one of the four kinds. -/
theorem affinity_ofEvents (w : Weights) (events : List Event) :
    (events.map (Event.score w)).foldr (· + ·) 0 = (ofEvents events).affinity w := by
  induction events with
  | nil => simp [ofEvents, affinity]
  | cons e events ih =>
    obtain ⟨b, outcome⟩ := e
    rw [List.map_cons, List.foldr_cons, ih]
    cases outcome with
    | none =>
      have hs : Event.score w ⟨b, none⟩ = w.dropped := rfl
      rw [ofEvents_drop, hs, affinity, affinity]
      push_cast
      ring
    | some step =>
      cases hc : step.consumed with
      | true =>
        have hs : Event.score w ⟨b, some step⟩ = w.consumed := by
          simp [Event.score, Event.isDropped, Event.isConsumed, hc]
        rw [ofEvents_consume b hc, hs, affinity, affinity]
        push_cast
        ring
      | false =>
        have hs : Event.score w ⟨b, some step⟩ = w.notConsumed := by
          simp [Event.score, Event.isDropped, Event.isConsumed, hc]
        cases hi : step.insert.isSome with
        | true =>
          rw [ofEvents_insert b hc hi, hs, affinity, affinity]
          push_cast
          ring
        | false =>
          rw [ofEvents_skip b hc hi, hs, affinity, affinity]
          push_cast
          ring

/-- **The standard weights** score a text by its length, less one for every slot that was passed
and less two for every character that was dropped. -/
theorem affinity_standard (n : Tally) :
    n.affinity {} =
      (n.consumed + n.dropped : Nat) - (n.inserted + n.skipped + 2 * n.dropped : Nat) := by
  rw [affinity]
  push_cast
  ring

end Tally

/-- The counts of a run. -/
def Run.tally (r : Run) : Tally := .ofEvents r.events

theorem Run.affinity_eq (w : Weights) (r : Run) : r.affinity w = r.tally.affinity w :=
  Tally.affinity_ofEvents w r.events

/-! ### Counts along a trace -/

namespace Chain

variable {c : Char} {chain left : Chain} {step : Step} {text : List (Char × Bool)}
  {events : List Event} {steps : List Step}

/-- What a slot writes when it is passed is a literal or nothing. -/
theorem Offer.length_insert_of_pass (ho : Offer c chain (some step)) (hc : step.consumed = false) :
    (step.insert.getD []).length = if step.insert.isSome then 1 else 0 := by
  cases ho with
  | fixed d rest => rfl
  | free d rest => rfl
  | optionalSkip rest h => rfl
  | value _ _ | optional _ _ | ellipsis _ => cases hc

/-- **Each character is consumed or dropped**, and only once. -/
theorem Trace.consumed_add_dropped (ht : Trace chain text events left) :
    (Tally.ofEvents events).consumed + (Tally.ofEvents events).dropped = text.length := by
  induction ht with
  | done => rfl
  | @drop chain left c b text events ho ht ih =>
    rw [Tally.ofEvents_drop, List.length_cons]
    show (Tally.ofEvents events).consumed + ((Tally.ofEvents events).dropped + 1) = _
    omega
  | @consume chain left c b text events step ho hc ht ih =>
    rw [Tally.ofEvents_consume b hc, List.length_cons]
    show (Tally.ofEvents events).consumed + 1 + (Tally.ofEvents events).dropped = _
    omega
  | @pass chain left c b text events step ho hc ht ih =>
    cases hi : step.insert.isSome with
    | true => rw [Tally.ofEvents_insert b hc hi]; exact ih
    | false => rw [Tally.ofEvents_skip b hc hi]; exact ih

/-- **Each slot that is passed is gone**: insertions and skips use up slots of the chain. -/
theorem Trace.inserted_add_skipped_le (ht : Trace chain text events left) :
    (Tally.ofEvents events).inserted + (Tally.ofEvents events).skipped +
      left.countP Slot.isPassable ≤ chain.countP Slot.isPassable := by
  induction ht with
  | done => simp [Tally.ofEvents]
  | @drop chain left c b text events ho ht ih =>
    rw [Tally.ofEvents_drop]
    exact ih
  | @consume chain left c b text events step ho hc ht ih =>
    have hle := ho.next_suffix.sublist.countP_le (p := Slot.isPassable)
    rw [Tally.ofEvents_consume b hc]
    exact ih.trans hle
  | @pass chain left c b text events step ho hc ht ih =>
    obtain ⟨s, hs, -, hp⟩ := ho.eq_cons_of_pass hc
    rw [hs, List.countP_cons_of_pos hp]
    cases hi : step.insert.isSome with
    | true =>
      rw [Tally.ofEvents_insert b hc hi]
      show (Tally.ofEvents events).inserted + 1 + (Tally.ofEvents events).skipped + _ ≤ _
      omega
    | false =>
      rw [Tally.ofEvents_skip b hc hi]
      show (Tally.ofEvents events).inserted + ((Tally.ofEvents events).skipped + 1) + _ ≤ _
      omega

/-- **The length of the output**: a character for each that is consumed and for each literal that
is inserted. -/
theorem Trace.length_written (ht : Trace chain text events left) :
    (events.flatMap Event.written).length =
      (Tally.ofEvents events).consumed + (Tally.ofEvents events).inserted := by
  induction ht with
  | done => rfl
  | @drop chain left c b text events ho ht ih =>
    rw [Tally.ofEvents_drop]
    exact ih
  | @consume chain left c b text events step ho hc ht ih =>
    have hw : (Event.mk b (some step)).written = [c] := by
      simp [Event.written, ho.insert_of_consume hc]
    rw [Tally.ofEvents_consume b hc, List.flatMap_cons, hw, List.length_append, ih]
    show 1 + _ = (Tally.ofEvents events).consumed + 1 + (Tally.ofEvents events).inserted
    omega
  | @pass chain left c b text events step ho hc ht ih =>
    have hw : (Event.mk b (some step)).written = step.insert.getD [] := rfl
    rw [List.flatMap_cons, hw, List.length_append, ho.length_insert_of_pass hc, ih]
    cases hi : step.insert.isSome with
    | true =>
      rw [Tally.ofEvents_insert b hc hi, if_pos rfl]
      show 1 + _ = (Tally.ofEvents events).consumed + ((Tally.ofEvents events).inserted + 1)
      omega
    | false =>
      rw [Tally.ofEvents_skip b hc hi, if_neg Bool.false_ne_true, Nat.zero_add]

/-- **A text that fits** is written as it is: nothing is taken from it and nothing added. -/
theorem Trace.written_of_exact (ht : Trace chain text events left)
    (hd : (Tally.ofEvents events).dropped = 0) (hi : (Tally.ofEvents events).inserted = 0) :
    events.flatMap Event.written = text.map (·.1) := by
  induction ht with
  | done => rfl
  | @drop chain left c b text events ho ht ih =>
    rw [Tally.ofEvents_drop] at hd
    cases hd
  | @consume chain left c b text events step ho hc ht ih =>
    have hw : (Event.mk b (some step)).written = [c] := by
      simp [Event.written, ho.insert_of_consume hc]
    rw [Tally.ofEvents_consume b hc] at hd hi
    rw [List.flatMap_cons, hw, ih hd hi]
    rfl
  | @pass chain left c b text events step ho hc ht ih =>
    cases hs : step.insert.isSome with
    | true =>
      rw [Tally.ofEvents_insert b hc hs] at hi
      cases hi
    | false =>
      have hw : (Event.mk b (some step)).written = [] := by
        have hnone : step.insert = none := by simpa using hs
        simp [Event.written, hnone]
      rw [Tally.ofEvents_skip b hc hs] at hd hi
      rw [List.flatMap_cons, hw, ih hd hi]
      rfl

/-- Completion writes a character for each literal. -/
theorem Trail.length_written (ht : Trail chain steps left) :
    (steps.flatMap fun s => s.insert.getD []).length = steps.length := by
  induction ht with
  | stop => rfl
  | fixed d ht ih => simp [ih]
  | free d ht ih => simp [ih]

/-- The counts of events do not depend on the marks of the text. -/
theorem tally_congr_step {events events' : List Event}
    (h : events'.map (·.step) = events.map (·.step)) :
    Tally.ofEvents events' = Tally.ofEvents events := by
  have hcount (p : Event → Bool) (hp : ∀ e, p e = p ⟨true, e.step⟩) :
      events'.countP p = events.countP p := by
    have hmap : events'.map p = events.map p :=
      map_congr_step (fun o => p ⟨true, o⟩) hp h
    have hid (es : List Event) : es.countP p = (es.map p).countP id := by
      rw [List.countP_map]
      rfl
    rw [hid, hid, hmap]
  rw [Tally.ofEvents, Tally.ofEvents, hcount Event.isConsumed fun _ => rfl,
    hcount Event.isDropped fun _ => rfl, hcount Event.isInserted fun _ => rfl,
    hcount Event.isSkipped fun _ => rfl]

/-- **A text has one tally**, wherever its caret stands and whether or not it is completed. -/
theorem Regular.tally_eq (h : chain.Regular) {t t' : CaretText} {autocomplete autocomplete' : Bool}
    {r r' : Run} (hc : t.chars = t'.chars) (hr : chain.run t autocomplete = .ok r)
    (hr' : chain.run t' autocomplete' = .ok r') : r'.tally = r.tally := by
  obtain ⟨s, reached, hs, hf, -, -⟩ := h.run t autocomplete
  obtain ⟨s', reached', hs', hf', -, -⟩ := h.run t' autocomplete'
  obtain rfl := Except.ok.inj (hs.symm.trans hr)
  obtain rfl := Except.ok.inj (hs'.symm.trans hr')
  have hm : t.marked.map (·.1) = t'.marked.map (·.1) := by
    rw [t.map_fst_marked, t'.map_fst_marked, hc]
  obtain ⟨events, hevents, hstep⟩ := feed_remark hm hf
  obtain ⟨rfl, -⟩ := Prod.mk.inj (Except.ok.inj (hevents.symm.trans hf'))
  exact tally_congr_step hstep

end Chain

/-! ### Counts of results -/

variable {m : Mask} {t t' : CaretText} {autocomplete autocomplete' : Bool} {run : Run}
  {r r' : Result}

/-- **The counts of a run**, against its text, its chain and its output. -/
theorem Chain.Regular.run_tally {chain : Chain} (h : chain.Regular)
    (hr : chain.run t autocomplete = .ok run) :
    run.tally.consumed + run.tally.dropped = t.chars.length ∧
      run.tally.inserted + run.tally.skipped ≤ chain.countP Slot.isPassable ∧
      run.written.length = run.tally.consumed + run.tally.inserted + run.completed.length := by
  obtain ⟨s, reached, hs, hf, htrail, -⟩ := h.run t autocomplete
  obtain rfl := Except.ok.inj (hs.symm.trans hr)
  have ht := h.trace_of_feed hf
  have hlength : t.marked.length = t.chars.length := by
    rw [← t.map_fst_marked, List.length_map]
  have hpassed := ht.inserted_add_skipped_le
  refine ⟨ht.consumed_add_dropped.trans hlength, ?_, ?_⟩
  · show (Tally.ofEvents s.events).inserted + (Tally.ofEvents s.events).skipped ≤ _
    omega
  · rw [Run.written, List.length_append, ht.length_written, htrail.length_written]
    rfl

/-- A mask scores a text by the counts of its run. -/
theorem Mask.affinity_eq (h : m.chain.Regular) (hrun : m.chain.run t autocomplete = .ok run)
    (hr : m.apply t autocomplete = .ok r) : r.affinity = run.tally.affinity m.weights := by
  obtain rfl := Except.ok.inj ((Mask.apply_eq h hrun).symm.trans hr)
  exact run.affinity_eq m.weights

/-- **Affinity is blind** to the caret and to completion. -/
theorem Mask.affinity_congr (h : m.chain.Regular) (hc : t.chars = t'.chars)
    (hr : m.apply t autocomplete = .ok r) (hr' : m.apply t' autocomplete' = .ok r') :
    r'.affinity = r.affinity := by
  obtain ⟨run, -, hrun, -⟩ := h.run t autocomplete
  obtain ⟨run', -, hrun', -⟩ := h.run t' autocomplete'
  rw [Mask.affinity_eq h hrun hr, Mask.affinity_eq h hrun' hr', h.tally_eq hc hrun hrun']

/-- With the standard weights no affinity exceeds the length of the text. -/
theorem Mask.affinity_standard (h : m.chain.Regular) (hw : m.weights = {})
    (hrun : m.chain.run t autocomplete = .ok run) (hr : m.apply t autocomplete = .ok r) :
    r.affinity ≤ t.chars.length ∧
      (r.affinity = t.chars.length ↔
        run.tally.dropped = 0 ∧ run.tally.inserted = 0 ∧ run.tally.skipped = 0) := by
  have hlength := (h.run_tally hrun).1
  rw [Mask.affinity_eq h hrun hr, hw, Tally.affinity_standard, hlength]
  constructor
  · omega
  · omega

/-- **A text of full affinity is formatted to itself**, if nothing is completed. -/
theorem Mask.formatted_of_exact (h : m.chain.Regular) (hw : m.weights = {})
    (hr : m.apply t autocomplete = .ok r) (hexact : r.affinity = t.chars.length) :
    ∃ r₀, m.apply t false = .ok r₀ ∧ r₀.formatted.chars = t.chars := by
  obtain ⟨run, -, hrun, -⟩ := h.run t autocomplete
  obtain ⟨run₀, reached, hrun₀, hf, -, hnone⟩ := h.run t false
  obtain ⟨hdropped, hinserted, -⟩ := (Mask.affinity_standard h hw hrun hr).2.mp hexact
  rw [h.tally_eq rfl hrun₀ hrun] at hdropped hinserted
  refine ⟨_, Mask.apply_eq h hrun₀, ?_⟩
  have hwritten := (h.trace_of_feed hf).written_of_exact hdropped hinserted
  show run₀.written = t.chars
  rw [Run.written, hnone rfl, hwritten, t.map_fst_marked, List.flatMap_nil, List.append_nil]

/-- **Affinity accounting.** For a format and a text there are counts of what is consumed, dropped,
inserted and skipped, whatever the weights, wherever the caret stands and whether or not literals
are completed: they are the counts of the run, and the affinity is their score. Each character is
consumed or dropped; no more is inserted and skipped than the chain has literals and optional
slots; and the formatted text has a character for each that is consumed, inserted or completed.
Other weights change the affinity and nothing else. With the standard weights the affinity is the
length of the text at most, and just that if nothing is dropped, inserted or skipped; the formatted
text is then the text itself, if nothing is completed. -/
theorem affinity_accounting {format : Text} {chain : Chain} (h : Chain.compile format = .ok chain)
    (text : Text) :
    ∃ n : Tally, n.consumed + n.dropped = text.length ∧
      n.inserted + n.skipped ≤ chain.countP Slot.isPassable ∧
      (∀ (w : Weights) (t : CaretText) (autocomplete : Bool), t.chars = text →
        ∃ m run r, Mask.compile format w = .ok m ∧ chain.run t autocomplete = .ok run ∧
          m.apply t autocomplete = .ok r ∧ r.formatted.chars = run.written ∧ run.tally = n ∧
          r.affinity = w.consumed * n.consumed + w.notConsumed * (n.inserted + n.skipped) +
            w.dropped * n.dropped ∧
          r.formatted.chars.length = n.consumed + n.inserted + run.completed.length ∧
          ∀ w' m' r', Mask.compile format w' = .ok m' → m'.apply t autocomplete = .ok r' →
            r' = { r with affinity := r'.affinity }) ∧
      (∀ (m : Mask) (t : CaretText) (autocomplete : Bool) (r : Result), t.chars = text →
        Mask.compile format {} = .ok m → m.apply t autocomplete = .ok r →
          r.affinity ≤ text.length ∧
          (r.affinity = text.length ↔ n.dropped = 0 ∧ n.inserted = 0 ∧ n.skipped = 0) ∧
          (r.affinity = text.length →
            ∃ r₀, m.apply t false = .ok r₀ ∧ r₀.formatted.chars = text)) := by
  have hreg := (linked_of_compile h).regular
  have hcompile (w : Weights) : Mask.compile format w = .ok ⟨format, w, chain⟩ :=
    Mask.compile_eq_ok_iff.mpr ⟨h, rfl, rfl⟩
  obtain ⟨run₀, -, hrun₀, -⟩ := hreg.run (.atEnd text) false
  obtain ⟨hlength, hpassed, -⟩ := hreg.run_tally hrun₀
  refine ⟨run₀.tally, hlength, hpassed, ?_, ?_⟩
  · intro w t autocomplete ht
    obtain ⟨run, -, hrun, -⟩ := hreg.run t autocomplete
    have htally : run.tally = run₀.tally := hreg.tally_eq ht.symm hrun₀ hrun
    have hwritten := (hreg.run_tally hrun).2.2
    have hr : Mask.apply ⟨format, w, chain⟩ t autocomplete = .ok (run.outcome w) :=
      Mask.apply_eq hreg hrun
    refine ⟨_, run, _, hcompile w, hrun, hr, rfl, htally, ?_, ?_, ?_⟩
    · rw [Mask.affinity_eq hreg hrun hr, htally, Tally.affinity]
    · rw [← htally]
      exact hwritten
    · intro w' m' r' hm' hr'
      obtain rfl := Except.ok.inj ((hcompile w').symm.trans hm')
      obtain rfl := Except.ok.inj ((Mask.apply_eq hreg hrun).symm.trans hr')
      rfl
  · intro m t autocomplete r ht hm hr
    obtain rfl := Except.ok.inj ((hcompile {}).symm.trans hm)
    obtain ⟨run, -, hrun, -⟩ := hreg.run t autocomplete
    obtain ⟨hle, hexact⟩ := Mask.affinity_standard hreg rfl hrun hr
    have hformatted := Mask.formatted_of_exact hreg rfl hr
    rw [hreg.tally_eq ht.symm hrun₀ hrun] at hexact
    rw [ht] at hle hexact hformatted
    exact ⟨hle, hexact, hformatted⟩

/-- Digits whose hyphen is missing, and a letter that finds no place: two characters are consumed,
one is dropped, a literal is inserted and an optional slot is skipped. -/
theorem affinity_accounting_decimal :
    ∃ n : Tally, n.consumed + n.dropped = 3 ∧
      ∀ w : Weights, ∃ m r, Mask.compile ['[', '0', '9', ']', '-', '[', '0', ']'] w = .ok m ∧
        m.apply (.atEnd ['1', 'x', '5']) false = .ok r ∧
        r.affinity = w.consumed * n.consumed + w.notConsumed * (n.inserted + n.skipped) +
          w.dropped * n.dropped := by
  have hcompile : Chain.compile ['[', '0', '9', ']', '-', '[', '0', ']'] =
      .ok [.value .numeric, .optional .numeric, .free '-', .value .numeric, .endOfLine] := rfl
  obtain ⟨n, hlength, -, hrun, -⟩ := affinity_accounting hcompile ['1', 'x', '5']
  refine ⟨n, hlength, fun w => ?_⟩
  obtain ⟨m, run, r, hm, -, hr, -, -, haffinity, -, -⟩ := hrun w (.atEnd _) false rfl
  exact ⟨m, r, hm, hr, haffinity⟩

end TextMask
