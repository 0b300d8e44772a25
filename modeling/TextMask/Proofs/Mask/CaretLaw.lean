import TextMask.Proofs.Mask.Outcome

/-!
# The caret law

The caret of a formatted text stands where the formatted image of the text before the caret ends.
So it does not matter for the output where the caret stands, and the caret never moves back when it
is moved on in the input.

* `Regular.run_front`: what belongs before the caret is the output of the text before it;
* `apply_front`: the same for the results of a mask;
* `apply_move`: without completion a result depends on the caret by its own caret only;
* `caret_law`: both, for compiled masks.
-/

namespace TextMask

open Chain

/-! ### Texts before and behind the caret -/

namespace CaretText

/-- The text in front of the caret, with the caret behind it. -/
def front (t : CaretText) : CaretText := atEnd (t.chars.take t.caret)

theorem marked_atEnd (p : Text) : (atEnd p).marked = p.map (·, true) := by
  rw [marked, atEnd, List.take_length, List.drop_length, List.map_nil, List.append_nil]

/-- A text whose caret stands at its end is all in front of the caret. -/
theorem front_of_caretAtEnd {t : CaretText} (h : t.caretAtEnd = true) : t.front = t := by
  obtain ⟨chars, caret, hle⟩ := t
  obtain rfl : caret = chars.length := beq_iff_eq.mp h
  rw [front]
  simp only [List.take_length]
  rfl

end CaretText

/-! ### Marks of events -/

namespace Chain

variable {chain left : Chain} {text : List (Char × Bool)} {events events' : List Event}

/-- An event carries the mark of the character that it is about. -/
theorem Trace.beforeCaret_eq (ht : Trace chain text events left) {b : Bool}
    (hb : ∀ p ∈ text, p.2 = b) : ∀ e ∈ events, e.beforeCaret = b := by
  induction ht with
  | done => intro e he; cases he
  | drop ho ht ih | consume ho hc ht ih =>
    obtain ⟨hhead, htail⟩ := List.forall_mem_cons.mp hb
    exact List.forall_mem_cons.mpr ⟨hhead, ih htail⟩
  | pass ho hc ht ih => exact List.forall_mem_cons.mpr ⟨hb _ List.mem_cons_self, ih hb⟩

/-- What is read off the steps of events does not depend on their marks. -/
theorem map_congr_step {β : Type} {f : Event → β} (g : Option Step → β) (hf : ∀ e, f e = g e.step)
    (h : events'.map (·.step) = events.map (·.step)) : events'.map f = events.map f := by
  have hsteps (es : List Event) : es.map f = (es.map (·.step)).map g := by
    rw [List.map_map]
    exact List.map_congr_left fun e _ => hf e
  rw [hsteps, hsteps, h]

/-! ### Runs over the text in front of the caret -/

/-- A run feeds the text in front of the caret first, and then the text behind it. -/
theorem Regular.feed_front (h : chain.Regular) (t : CaretText) :
    ∃ front behind reached left,
      chain.feed t.front.marked = .ok (front, reached) ∧
      reached.feed ((t.chars.drop t.caret).map (·, false)) = .ok (behind, left) ∧
      chain.feed t.marked = .ok (front ++ behind, left) ∧
      (∀ e ∈ front, e.beforeCaret = true) ∧ (∀ e ∈ behind, e.beforeCaret = false) := by
  obtain ⟨front, reached, hf, ht⟩ := h.feed t.front.marked
  obtain ⟨behind, left, hf', ht'⟩ :=
    (ht.regular h).feed ((t.chars.drop t.caret).map (·, false))
  refine ⟨front, behind, reached, left, hf, hf', ?_, ht.beforeCaret_eq ?_, ht'.beforeCaret_eq ?_⟩
  · have hfront := hf
    rw [CaretText.front, CaretText.marked_atEnd] at hfront
    exact feed_append hfront hf'
  · intro p hp
    rw [CaretText.front, CaretText.marked_atEnd] at hp
    obtain ⟨c, _, rfl⟩ := List.mem_map.mp hp
    rfl
  · intro p hp
    obtain ⟨c, _, rfl⟩ := List.mem_map.mp hp
    rfl

/-- **What belongs before the caret** is the output of a run over the text in front of it, which is
completed if the whole text is. -/
theorem Regular.run_front (h : chain.Regular) (t : CaretText) (autocomplete : Bool) :
    ∃ r r₀, chain.run t autocomplete = .ok r ∧
      chain.run t.front (autocomplete && t.caretAtEnd) = .ok r₀ ∧
      r.writtenBefore = r₀.written ∧ r₀.written <+: r.written := by
  obtain ⟨front, behind, reached, left, hf, hf', hfeed, hfront, hbehind⟩ := h.feed_front t
  have hfilter : (front ++ behind).filter (·.beforeCaret) = front := by
    rw [List.filter_append, List.filter_eq_self.mpr hfront,
      List.filter_eq_nil_iff.mpr (fun e he => by rw [hbehind e he]; exact Bool.false_ne_true),
      List.append_nil]
  cases hend : t.caretAtEnd with
  | true =>
    -- nothing stands behind the caret, so both runs are the same
    obtain ⟨r, reached', hr, hfr, -, -⟩ := h.run t autocomplete
    rw [CaretText.front_of_caretAtEnd hend] at hf ⊢
    rw [Bool.and_true]
    obtain ⟨rfl, -⟩ := Prod.mk.inj (Except.ok.inj (hf.symm.trans hfr))
    refine ⟨r, r, hr, hr, ?_, List.prefix_refl _⟩
    rw [Run.writtenBefore, Run.written, List.filter_eq_self.mpr hfront]
  | false =>
    refine ⟨_, _, run_plain (by rw [hend, Bool.and_false]) hfeed,
      run_plain (by rw [Bool.and_false, Bool.false_and]) hf, ?_, ?_⟩
    · rw [Run.writtenBefore, Run.written, hfilter]
    · rw [Run.written, Run.written, List.flatMap_append, List.flatMap_nil, List.append_nil,
        List.append_nil]
      exact List.prefix_append _ _

/-- Runs without completion over one text differ in the marks of their events only. -/
theorem Regular.run_move (h : chain.Regular) {t t' : CaretText} (hc : t.chars = t'.chars) :
    ∃ r r', chain.run t false = .ok r ∧ chain.run t' false = .ok r' ∧
      r'.events.map (·.step) = r.events.map (·.step) ∧ r.completed = [] ∧ r'.completed = [] ∧
      r'.left = r.left := by
  obtain ⟨events, left, hf, -⟩ := h.feed t.marked
  have hm : t.marked.map (·.1) = t'.marked.map (·.1) := by
    rw [t.map_fst_marked, t'.map_fst_marked, hc]
  obtain ⟨events', hf', hstep⟩ := feed_remark hm hf
  exact ⟨_, _, run_plain (Bool.false_and _) hf, run_plain (Bool.false_and _) hf', hstep, rfl, rfl,
    rfl⟩

end Chain

/-! ### Results -/

variable {m : Mask}

/-- **The caret of a result** is the length of the formatted text in front of it, with which the
formatted text begins. -/
theorem apply_front (h : m.chain.Regular) (t : CaretText) (autocomplete : Bool) :
    ∃ r r₀, m.apply t autocomplete = .ok r ∧
      m.apply t.front (autocomplete && t.caretAtEnd) = .ok r₀ ∧
      r.formatted.caret = r₀.formatted.chars.length ∧
      r₀.formatted.chars <+: r.formatted.chars := by
  obtain ⟨r, r₀, hr, hr₀, hwritten, hprefix⟩ := h.run_front t autocomplete
  exact ⟨_, _, Mask.apply_eq h hr, Mask.apply_eq h hr₀, congrArg List.length hwritten, hprefix⟩

/-- **Moving the caret** changes the caret of a result and nothing else, if nothing is
completed. -/
theorem apply_move (h : m.chain.Regular) {t t' : CaretText} (hc : t.chars = t'.chars) :
    ∃ r r', m.apply t false = .ok r ∧ m.apply t' false = .ok r' ∧
      r'.formatted.chars = r.formatted.chars ∧ r'.extracted = r.extracted ∧
      r'.affinity = r.affinity ∧ r'.complete = r.complete := by
  obtain ⟨r, r', hr, hr', hstep, hn, hn', hleft⟩ := h.run_move hc
  have hwritten : r'.events.flatMap Event.written = r.events.flatMap Event.written :=
    congrArg List.flatten
      (map_congr_step (fun o => (o.bind (·.insert)).getD []) (fun _ => rfl) hstep)
  have hextracted : r'.events.flatMap Event.extracted = r.events.flatMap Event.extracted :=
    congrArg List.flatten
      (map_congr_step (fun o => (o.bind (·.value)).getD []) (fun _ => rfl) hstep)
  have hscore : r'.events.map (Event.score m.weights) = r.events.map (Event.score m.weights) :=
    map_congr_step (fun o => Event.score m.weights ⟨true, o⟩) (fun _ => rfl) hstep
  refine ⟨_, _, Mask.apply_eq h hr, Mask.apply_eq h hr', ?_, ?_, ?_, ?_⟩
  · show r'.written = r.written
    rw [Run.written, Run.written, hn, hn', hwritten]
  · show r'.extracted = r.extracted
    rw [Run.extracted, Run.extracted, hn, hn', hextracted]
  · show r'.affinity m.weights = r.affinity m.weights
    rw [Run.affinity, Run.affinity, hscore]
  · show (!r'.left.any Slot.isMandatory) = !r.left.any Slot.isMandatory
    rw [hleft]

/-- **A caret that moves on** never moves back in the result. -/
theorem apply_caret_mono (h : m.chain.Regular) {t t' : CaretText} (hc : t.chars = t'.chars)
    (hle : t.caret ≤ t'.caret) {r r' : Result} (hr : m.apply t false = .ok r)
    (hr' : m.apply t' false = .ok r') : r.formatted.caret ≤ r'.formatted.caret := by
  obtain ⟨s, s₀, hs, hs₀, hcaret, -⟩ := apply_front h t false
  obtain ⟨s', s₀', hs', hs₀', hcaret', -⟩ := apply_front h t' false
  obtain rfl := Except.ok.inj (hs.symm.trans hr)
  obtain rfl := Except.ok.inj (hs'.symm.trans hr')
  -- the text in front of the second caret, with the first caret in it
  have hle' : t.caret ≤ t'.front.chars.length := by
    have := t'.caret_le
    rw [CaretText.front, CaretText.atEnd, List.length_take]
    omega
  obtain ⟨q, q₀, hq, hq₀, -, hprefix⟩ := apply_front h ⟨t'.front.chars, t.caret, hle'⟩ false
  have hfront : CaretText.front ⟨t'.front.chars, t.caret, hle'⟩ = t.front := by
    have htake : t'.front.chars.take t.caret = t.chars.take t.caret := by
      show (t'.chars.take t'.caret).take t.caret = _
      rw [List.take_take, Nat.min_eq_left hle, hc]
    exact congrArg CaretText.atEnd htake
  rw [hfront, Bool.false_and] at hq₀
  rw [Bool.false_and] at hs₀ hs₀'
  obtain rfl := Except.ok.inj (hq₀.symm.trans hs₀)
  have hsame : (⟨t'.front.chars, t.caret, hle'⟩ : CaretText).chars = t'.front.chars := rfl
  obtain ⟨u, u', hu, hu', hchars, -⟩ := apply_move h hsame
  obtain rfl := Except.ok.inj (hu.symm.trans hq)
  obtain rfl := Except.ok.inj (hu'.symm.trans hs₀')
  rw [hcaret, hcaret', hchars]
  exact hprefix.length_le

/-- **The caret law.** For a compiled mask, the caret of a result is the length of the formatted
text in front of the caret, and the formatted text begins with it. So, if nothing is completed,
carets keep their order, and the formatted text, the extracted value, the affinity and the
completeness do not depend on the caret. -/
theorem caret_law {format : Text} {w : Weights} (h : Mask.compile format w = .ok m) :
    (∀ (t : CaretText) (autocomplete : Bool), ∃ r r₀,
      m.apply t autocomplete = .ok r ∧
      m.apply (.atEnd (t.chars.take t.caret)) (autocomplete && (t.caret == t.chars.length))
        = .ok r₀ ∧
      r.formatted.caret = r₀.formatted.chars.length ∧
      r₀.formatted.chars <+: r.formatted.chars) ∧
    ∀ t t' : CaretText, t.chars = t'.chars → t.caret ≤ t'.caret → ∃ r r',
      m.apply t false = .ok r ∧ m.apply t' false = .ok r' ∧
      r.formatted.caret ≤ r'.formatted.caret ∧
      r'.formatted.chars = r.formatted.chars ∧ r'.extracted = r.extracted ∧
      r'.affinity = r.affinity ∧ r'.complete = r.complete := by
  have hreg := Mask.regular_of_compile h
  refine ⟨fun t autocomplete => apply_front hreg t autocomplete, fun t t' hc hle => ?_⟩
  obtain ⟨r, r', hr, hr', hsame⟩ := apply_move hreg hc
  exact ⟨r, r', hr, hr', apply_caret_mono hreg hc hle hr hr', hsame⟩

/-- A caret between digits, and behind a letter that finds no place. -/
theorem caret_law_decimal :
    ∃ (m : Mask) (r r₀ : Result),
      Mask.compile ['[', '0', ']', '\x7b', '.', '\x7d', '[', '0', '…', ']'] {} = .ok m ∧
      m.apply ⟨['1', 'x', '5'], 2, by decide⟩ true = .ok r ∧
      m.apply (.atEnd ['1', 'x']) false = .ok r₀ ∧
      r.formatted.caret = r₀.formatted.chars.length := by
  have hcompile : Mask.compile ['[', '0', ']', '\x7b', '.', '\x7d', '[', '0', '…', ']'] {} =
      .ok ⟨_, {}, [.value .numeric, .fixed '.', .value .numeric, .ellipsis .numeric]⟩ := rfl
  obtain ⟨r, r₀, hr, hr₀, hcaret, -⟩ :=
    (caret_law hcompile).1 ⟨['1', 'x', '5'], 2, by decide⟩ true
  exact ⟨_, r, r₀, hcompile, hr, hr₀, hcaret⟩

end TextMask
