import Mathlib.Data.List.Forall2
import TextMask.Proofs.Mask.Affinity
import TextMask.Proofs.Mask.Extent

/-!
# Filled texts

A text that has a character for each of the first slots of a chain, and perhaps more of them for an
ellipsis that comes next, is formatted already. Every character of it is taken by the slot that it
is meant for, so nothing is written that was not typed, and the caret stays where it is.

* `Slot.Takes`, `Chain.Fills`: the characters of a slot, and texts made of such characters;
* `Chain.TakesAll`: a run that takes every character;
* `Mask.apply_of_takesAll`: it leaves the text and the caret alone;
* `Fills.takesAll`: a filled text is taken, slot by slot;
* `Fills.of_prefix`: a filled text stays filled when characters are deleted at its end;
* `filled_fixed_point`: what a compiled mask makes of filled texts.
-/

namespace TextMask

open Chain

/-! ### Filled texts -/

/-- The slot takes the character: a literal takes its own, a place those of its class. -/
inductive Slot.Takes : Slot → Char → Prop
  | fixed (d : Char) : Takes (.fixed d) d
  | free (d : Char) : Takes (.free d) d
  | value {k : CharClass} {c : Char} (h : k.accepts c = true) : Takes (.value k) c
  | optional {k : CharClass} {c : Char} (h : k.accepts c = true) : Takes (.optional k) c
  | ellipsis {k : CharClass} {c : Char} (h : k.accepts c = true) : Takes (.ellipsis k) c

namespace Chain

/-- `Fills chain passed left text repeated`: the text has a character for each of the slots that are
passed, and more are repeated behind it only if the next slot is an ellipsis, which takes them. -/
structure Fills (chain : Chain) (passed : List Slot) (left : Chain) (text repeated : Text) :
    Prop where
  chain_eq : chain = passed ++ left
  takes : List.Forall₂ Slot.Takes passed text
  repeats : repeated = [] ∨
    ∃ k, left.head? = some (.ellipsis k) ∧ ∀ c ∈ repeated, k.accepts c = true

/-- The characters of a text without those that stand for free slots. -/
def withoutFree (passed : List Slot) (text : Text) : Text :=
  ((passed.zip text).filter (·.1.kind != .free)).map (·.2)

/-- `TakesAll chain marked value left`: every character is taken by the slot that it is offered to
first, and what is extracted is the value. -/
def TakesAll (chain : Chain) (marked : List (Char × Bool)) (value : Text) (left : Chain) : Prop :=
  ∃ events, Trace chain marked events left ∧ (∀ e ∈ events, e.isConsumed = true) ∧
    events.flatMap Event.extracted = value

end Chain

variable {c : Char} {b : Bool} {chain mid left : Chain} {step : Step} {k : CharClass}
  {marked marked' : List (Char × Bool)} {events : List Event} {value value' : Text}
  {passed : List Slot} {text repeated : Text}

/-! ### Runs that take every character -/

namespace Chain

theorem takesAll_nil (chain : Chain) : TakesAll chain [] [] chain :=
  ⟨[], .done chain, List.forall_mem_nil _, rfl⟩

theorem TakesAll.regular (h : TakesAll chain marked value left) (hr : chain.Regular) :
    left.Regular := by
  obtain ⟨events, ht, -, -⟩ := h
  exact ht.regular hr

theorem TakesAll.take (h : TakesAll step.next marked value left)
    (ho : Offer c chain (some step)) (hc : step.consumed = true) :
    TakesAll chain ((c, b) :: marked) (step.value.getD [] ++ value) left := by
  obtain ⟨events, ht, hevents, rfl⟩ := h
  exact ⟨_, .consume ho hc ht, List.forall_mem_cons.mpr ⟨hc, hevents⟩, rfl⟩

theorem TakesAll.append (h : TakesAll chain marked value mid)
    (h' : TakesAll mid marked' value' left) :
    TakesAll chain (marked ++ marked') (value ++ value') left := by
  obtain ⟨events, ht, hevents, rfl⟩ := h
  obtain ⟨events', ht', hevents', rfl⟩ := h'
  exact ⟨_, ht.append ht', List.forall_mem_append.mpr ⟨hevents, hevents'⟩, List.flatMap_append⟩

end Chain

/-- Where everything is consumed, nothing else happens. -/
theorem Tally.ofEvents_of_consumed (h : ∀ e ∈ events, e.isConsumed = true) :
    ofEvents events = ⟨events.length, 0, 0, 0⟩ := by
  induction events with
  | nil => rfl
  | cons e events ih =>
    obtain ⟨he, hevents⟩ := List.forall_mem_cons.mp h
    obtain ⟨b, outcome⟩ := e
    cases outcome with
    | none => cases he
    | some step => rw [ofEvents_consume b he, ih hevents]; rfl

/-- Nor does the caret move. -/
theorem Event.caretShift_of_consumed (h : ∀ e ∈ events, e.isConsumed = true) :
    (events.map Event.caretShift).foldr (· + ·) 0 = 0 := by
  induction events with
  | nil => rfl
  | cons e events ih =>
    obtain ⟨he, hevents⟩ := List.forall_mem_cons.mp h
    have hzero : e.caretShift = 0 := by
      obtain ⟨b, outcome⟩ := e
      cases outcome with
      | none => cases he
      | some step =>
        have hc : step.consumed = true := he
        simp [caretShift, isDropped, isInserted, hc]
    rw [List.map_cons, List.foldr_cons, ih hevents, hzero]
    rfl

/-- **A text that is taken** is left alone, with its caret, and scores for each of its
characters. -/
theorem Mask.apply_of_takesAll {m : Mask} {t : CaretText} (h : m.chain.Regular)
    (ht : TakesAll m.chain t.marked value left) :
    ∃ r, m.apply t false = .ok r ∧ r.formatted = t ∧
      r.affinity = m.weights.consumed * t.chars.length ∧ r.extracted = value ∧
      r.complete = !left.any Slot.isMandatory := by
  obtain ⟨events, ht, hevents, rfl⟩ := ht
  have hrun := run_plain (Bool.false_and _) (h.feed_of_trace ht)
  have htally := Tally.ofEvents_of_consumed hevents
  have hwritten : events.flatMap Event.written = t.chars := by
    rw [ht.written_of_exact (by rw [htally]) (by rw [htally]), t.map_fst_marked]
  have hlength : events.length = t.chars.length := by
    have hcount := ht.consumed_add_dropped
    rw [htally] at hcount
    rw [← t.map_fst_marked, List.length_map]
    exact hcount
  have hcaret : t.caret = (⟨events, [], left⟩ : Run).writtenBefore.length := by
    have hmoved := h.caret_add_shift hrun
    rw [Run.caretShift, Event.caretShift_of_consumed hevents] at hmoved
    simpa using hmoved
  refine ⟨_, Mask.apply_eq h hrun, ?_, ?_, ?_, rfl⟩
  · obtain ⟨chars, caret, hle⟩ := t
    have hchars : (⟨events, [], left⟩ : Run).written = chars := by
      rw [Run.written, hwritten]
      exact List.append_nil chars
    simp only [Run.outcome, CaretText.mk.injEq]
    exact ⟨hchars, hcaret.symm⟩
  · show Run.affinity _ _ = _
    rw [Run.affinity_eq, Run.tally, htally, Tally.affinity, hlength]
    simp
  · exact List.append_nil _

/-! ### Filled texts are taken -/

namespace Chain

/-- An ellipsis takes what is repeated. -/
theorem takesAll_repeated (h : ∀ p ∈ marked, k.accepts p.1 = true) :
    TakesAll [.ellipsis k] marked (marked.map (·.1)) [.ellipsis k] := by
  induction marked with
  | nil => exact takesAll_nil _
  | cons p marked ih =>
    obtain ⟨hp, hmarked⟩ := List.forall_mem_cons.mp h
    exact (ih hmarked).take (.ellipsis hp) rfl

theorem withoutFree_cons (s : Slot) (c : Char) (passed : List Slot) (text : Text) :
    withoutFree (s :: passed) (c :: text) =
      (if s.kind = .free then [] else [c]) ++ withoutFree passed text := by
  by_cases h : s.kind = .free
  · simp [withoutFree, h]
  · simp [withoutFree, h]

/-- A slot uses up the character that it takes and is left, or it is the ellipsis that closes the
chain. -/
theorem Regular.offer_of_takes {s : Slot} {rest : Chain} (h : Regular (s :: rest))
    (hs : s.Takes c) :
    rest.Regular ∧ Offer c (s :: rest)
        (some ⟨some [c], true, if s.kind = .free then none else some [c], rest⟩) ∨
      ∃ k, s = .ellipsis k ∧ rest = [] ∧ k.accepts c = true := by
  cases hs with
  | fixed =>
    have ho := Offer.fixed (c := c) c rest
    rw [beq_self_eq_true] at ho
    cases h with
    | fixed _ hrest => exact Or.inl ⟨hrest, ho⟩
  | free =>
    have ho := Offer.free (c := c) c rest
    rw [beq_self_eq_true] at ho
    cases h with
    | free _ hrest => exact Or.inl ⟨hrest, ho⟩
  | value hk =>
    cases h with
    | value _ hrest => exact Or.inl ⟨hrest, .value rest hk⟩
  | optional hk =>
    cases h with
    | optional _ hrest => exact Or.inl ⟨hrest, .optional rest hk⟩
  | @ellipsis k _ hk =>
    cases h
    exact Or.inr ⟨k, rfl, rfl, hk⟩

/-- An ellipsis closes the chain. -/
theorem Regular.eq_of_head (h : chain.Regular) (hk : chain.head? = some (.ellipsis k)) :
    chain = [.ellipsis k] := by
  cases h <;> cases hk
  rfl

/-- The slots that are passed take their characters, one after the other. An ellipsis among them is
the last of all slots, and is not left. -/
theorem takesAll_of_takes (h : Chain.Regular (passed ++ left))
    (ht : List.Forall₂ Slot.Takes passed (marked.map (·.1))) :
    ∃ reached, TakesAll (passed ++ left) marked (withoutFree passed (marked.map (·.1))) reached ∧
      (reached = left ∨ left = [] ∧ ∃ k, reached = [.ellipsis k]) := by
  induction marked generalizing passed with
  | nil =>
    cases ht
    exact ⟨left, takesAll_nil _, Or.inl rfl⟩
  | cons p marked ih =>
    obtain ⟨c, b⟩ := p
    obtain ⟨s, passed, hs, hpassed, rfl⟩ := List.forall₂_cons_right_iff.mp ht
    rw [List.cons_append] at h ⊢
    rw [List.map_cons, withoutFree_cons]
    rcases h.offer_of_takes hs with ⟨hrest, ho⟩ | ⟨k, rfl, hnil, hk⟩
    · obtain ⟨reached, hall, hreached⟩ := ih hrest hpassed
      have hvalue : (if s.kind = .free then [] else [c]) =
          (if s.kind = .free then none else some [c] : Option Text).getD [] := by
        by_cases hfree : s.kind = .free
        · simp [hfree]
        · simp [hfree]
      rw [hvalue]
      exact ⟨reached, hall.take ho rfl, hreached⟩
    · obtain ⟨rfl, rfl⟩ := List.append_eq_nil_iff.mp hnil
      obtain rfl := List.map_eq_nil_iff.mp (List.forall₂_nil_left_iff.mp hpassed)
      exact ⟨[.ellipsis k], (takesAll_nil _).take (.ellipsis hk) rfl, Or.inr ⟨rfl, k, rfl⟩⟩

/-- **A filled text is taken**, slot by slot and then by the ellipsis. -/
theorem Fills.takesAll (hf : chain.Fills passed left text repeated) (h : chain.Regular)
    (hm : marked.map (·.1) = text ++ repeated) :
    ∃ reached, TakesAll chain marked (withoutFree passed text ++ repeated) reached ∧
      reached.any Slot.isMandatory = left.any Slot.isMandatory := by
  obtain ⟨rfl, htakes, hrepeats⟩ := hf
  obtain ⟨front, back, rfl, rfl, rfl⟩ := List.map_eq_append_iff.mp hm
  obtain ⟨reached, hall, hreached⟩ := takesAll_of_takes h htakes
  rcases hrepeats with hnil | ⟨k, hk, hclass⟩
  · obtain rfl := List.map_eq_nil_iff.mp hnil
    refine ⟨reached, hall.append (takesAll_nil _), ?_⟩
    rcases hreached with rfl | ⟨rfl, k, rfl⟩
    · rfl
    · rfl
  · rcases hreached with rfl | ⟨rfl, -⟩
    · obtain rfl := (hall.regular h).eq_of_head hk
      exact ⟨[.ellipsis k], hall.append (takesAll_repeated (List.forall_mem_map.mp hclass)), rfl⟩
    · cases hk

/-- **Deleting at the end** of a filled text leaves a filled text. -/
theorem Fills.of_prefix (hf : Fills chain passed left text repeated) {front : Text}
    (hp : front <+: text ++ repeated) :
    ∃ passed' left' text' repeated', Fills chain passed' left' text' repeated' ∧
      front = text' ++ repeated' := by
  have htext := List.prefix_append text repeated
  rcases Nat.le_total front.length text.length with hle | hle
  · obtain ⟨rest, rfl⟩ := List.prefix_of_prefix_length_le hp htext hle
    refine ⟨passed.take front.length, passed.drop front.length ++ left, front, [],
      ⟨?_, List.forall₂_take_append _ _ _ hf.takes, Or.inl rfl⟩, (List.append_nil _).symm⟩
    rw [← List.append_assoc, List.take_append_drop, hf.chain_eq]
  · obtain ⟨rest, rfl⟩ := List.prefix_of_prefix_length_le htext hp hle
    have hrest : rest <+: repeated := (List.prefix_append_right_inj text).mp hp
    refine ⟨passed, left, text, rest, ⟨hf.chain_eq, hf.takes, ?_⟩, rfl⟩
    rcases hf.repeats with rfl | ⟨k, hk, hclass⟩
    · exact Or.inl (List.prefix_nil.mp hrest)
    · exact Or.inr ⟨k, hk, fun c hc => hclass c (hrest.subset hc)⟩

/-- **A placeholder** shows all slots of a chain but for the last one, which need not be filled. -/
theorem Regular.shown (h : chain.Regular) :
    (∃ last, chain = chain.slots.takeWhile (!·.elliptical) ++ [last] ∧ last.isMandatory = false) ∧
      (chain.slots.takeWhile (!·.elliptical)).length = chain.maxTextLength := by
  induction h with
  | endOfLine => exact ⟨⟨_, rfl, rfl⟩, rfl⟩
  | ellipsis k => exact ⟨⟨_, rfl, rfl⟩, rfl⟩
  | fixed d _ ih | free d _ ih | value k _ ih | optional k _ ih =>
    obtain ⟨⟨last, hchain, hlast⟩, hlength⟩ := ih
    rw [slots_cons rfl, List.takeWhile_cons_of_pos rfl, List.length_cons, hlength, maxTextLength,
      maxTextLength, count_cons rfl]
    exact ⟨⟨last, congrArg (_ :: ·) hchain, hlast⟩, rfl⟩

end Chain

variable {m : Mask}

/-- A filled text is formatted to itself. -/
theorem Mask.apply_of_fills (h : m.chain.Regular) (hf : m.chain.Fills passed left text repeated)
    {t : CaretText} (ht : t.chars = text ++ repeated) :
    ∃ r, m.apply t false = .ok r ∧ r.formatted = t ∧
      r.affinity = m.weights.consumed * t.chars.length ∧
      r.extracted = withoutFree passed text ++ repeated ∧
      (r.complete = true ↔ ∀ s ∈ left, s.isMandatory = false) := by
  obtain ⟨reached, hall, hreached⟩ := hf.takesAll h (t.map_fst_marked.trans ht)
  obtain ⟨r, hr, hformatted, haffinity, hextracted, hcomplete⟩ := Mask.apply_of_takesAll h hall
  refine ⟨r, hr, hformatted, haffinity, hextracted, ?_⟩
  rw [hcomplete, hreached, Bool.not_eq_true', List.any_eq_false]
  simp only [Bool.not_eq_true]

/-- **Filled texts are fixed points.** A text that has a character for each of the first slots of a
compiled mask, and more for an ellipsis that comes next, is formatted to itself with the same caret,
wherever that is. Each character scores as consumed, the extracted value lacks the characters of the
free slots, and the result is complete just if none of the other slots is mandatory. So is each text
that is left when characters are deleted at the end. A text that fills the whole placeholder is
complete, and its affinity is the greatest length of a text if the weights are the standard ones. -/
theorem filled_fixed_point {format : Text} {w : Weights} (h : Mask.compile format w = .ok m) :
    (∀ passed left text repeated, m.chain.Fills passed left text repeated →
      (∀ t : CaretText, t.chars = text ++ repeated →
        ∃ r, m.apply t false = .ok r ∧ r.formatted = t ∧
          r.affinity = w.consumed * t.chars.length ∧
          r.extracted = withoutFree passed text ++ repeated ∧
          (r.complete = true ↔ ∀ s ∈ left, s.isMandatory = false)) ∧
      ∀ t : CaretText, t.chars <+: text ++ repeated →
        ∃ r, m.apply t false = .ok r ∧ r.formatted = t) ∧
    ∀ t : CaretText,
      List.Forall₂ Slot.Takes (m.chain.slots.takeWhile (!·.elliptical)) t.chars →
        ∃ r, m.apply t false = .ok r ∧ r.formatted = t ∧ r.complete = true ∧
          (w = {} → r.affinity = m.chain.maxTextLength) := by
  have hreg := Mask.regular_of_compile h
  obtain ⟨-, -, rfl⟩ := Mask.compile_eq_ok_iff.mp h
  refine ⟨fun passed left text repeated hf => ⟨fun t ht => ?_, fun t ht => ?_⟩, fun t ht => ?_⟩
  · exact Mask.apply_of_fills hreg hf ht
  · obtain ⟨passed', left', text', repeated', hf', htext⟩ := hf.of_prefix ht
    obtain ⟨r, hr, hformatted, -⟩ := Mask.apply_of_fills hreg hf' htext
    exact ⟨r, hr, hformatted⟩
  · obtain ⟨⟨last, hchain, hlast⟩, hlength⟩ := hreg.shown
    have hf : m.chain.Fills _ [last] t.chars [] := ⟨hchain, ht, Or.inl rfl⟩
    obtain ⟨r, hr, hformatted, haffinity, -, hcomplete⟩ :=
      Mask.apply_of_fills hreg hf (List.append_nil _).symm
    refine ⟨r, hr, hformatted, hcomplete.mpr (List.forall_mem_singleton.mpr hlast), fun hw => ?_⟩
    rw [haffinity, hw, ← hlength, ht.length_eq]
    exact Int.one_mul _

/-- Digits, a hyphen and a stop, and letters of which the last one stands for an ellipsis: with the
caret inside, with the last three characters deleted, and without the letter for the ellipsis. -/
theorem filled_fixed_point_decimal :
    ∃ (m : Mask) (r r' r'' : Result),
      Mask.compile ['[', '0', '9', ']', '-', '\x7b', '.', '\x7d', '[', 'A', '…', ']'] {} = .ok m ∧
      m.chain.Fills [.value .numeric, .optional .numeric, .free '-', .fixed '.', .value .letter]
        [.ellipsis .letter] ['1', '2', '-', '.', 'b'] ['c'] ∧
      m.apply ⟨['1', '2', '-', '.', 'b', 'c'], 3, by decide⟩ false = .ok r ∧
      r.formatted = ⟨['1', '2', '-', '.', 'b', 'c'], 3, by decide⟩ ∧ r.affinity = 6 ∧
      r.extracted = ['1', '2', '.', 'b', 'c'] ∧ r.complete = true ∧
      m.apply ⟨['1', '2', '-'], 1, by decide⟩ false = .ok r' ∧
      r'.formatted = ⟨['1', '2', '-'], 1, by decide⟩ ∧
      m.apply (.atEnd ['1', '2', '-', '.', 'b']) false = .ok r'' ∧ r''.complete = true ∧
      r''.affinity = 5 := by
  have hcompile : Mask.compile ['[', '0', '9', ']', '-', '\x7b', '.', '\x7d', '[', 'A', '…', ']'] {}
      = .ok ⟨_, {}, [.value .numeric, .optional .numeric, .free '-', .fixed '.', .value .letter,
        .ellipsis .letter]⟩ := rfl
  have htakes : List.Forall₂ Slot.Takes
      [.value .numeric, .optional .numeric, .free '-', .fixed '.', .value .letter]
      ['1', '2', '-', '.', 'b'] :=
    .cons (.value (isDecimalDigit_of_isDigit rfl))
      (.cons (.optional (isDecimalDigit_of_isDigit rfl)) (.cons (.free _) (.cons (.fixed _)
        (.cons (.value (isLetter_of_isAlpha rfl)) .nil))))
  have hf : Fills [.value .numeric, .optional .numeric, .free '-', .fixed '.', .value .letter,
      .ellipsis .letter] [.value .numeric, .optional .numeric, .free '-', .fixed '.',
      .value .letter] [.ellipsis .letter] ['1', '2', '-', '.', 'b'] ['c'] :=
    ⟨rfl, htakes, Or.inr ⟨.letter, rfl, List.forall_mem_singleton.mpr (isLetter_of_isAlpha rfl)⟩⟩
  obtain ⟨hfilled, hplaceholder⟩ := filled_fixed_point hcompile
  obtain ⟨hall, hdeleted⟩ := hfilled _ _ _ _ hf
  obtain ⟨r, hr, hformatted, haffinity, hextracted, hcomplete⟩ :=
    hall ⟨['1', '2', '-', '.', 'b', 'c'], 3, by decide⟩ rfl
  obtain ⟨r', hr', hformatted'⟩ := hdeleted ⟨['1', '2', '-'], 1, by decide⟩ ⟨_, rfl⟩
  obtain ⟨r'', hr'', -, hcomplete'', haffinity''⟩ :=
    hplaceholder (.atEnd ['1', '2', '-', '.', 'b']) htakes
  exact ⟨_, r, r', r'', hcompile, hf, hr, hformatted, haffinity, hextracted,
    hcomplete.mpr (List.forall_mem_singleton.mpr rfl), hr', hformatted', hr'', hcomplete'',
    haffinity'' rfl⟩

end TextMask
