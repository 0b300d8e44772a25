import TextMask.Proofs.Mask.Typing

/-!
# Restoring a stored value

The extracted value of a text is what a program stores; the formatted text is shown again by
formatting the value. Free literals are missing from the value and fixed ones are part of it, so a
free literal can take the character of a later fixed literal. The run over the value then stands
behind the run over the text: it still has to write literals that the text has passed. As no class
holds a free literal, the two runs meet again at the next place for a character.

* `Chain.Owes`: a chain that still has literals in front of another one;
* `Chain.Restores`: what a run with completion makes of a value;
* `Owes.restores_cons`: a character is offered to a chain that owes literals;
* `Keeps.restores`: a chain restores the text that it keeps from the value of this text;
* `restore_extracted`: a mask restores a complete text from its extracted value.
-/

namespace TextMask

open Chain

namespace Chain

/-- `Owes slow text value fast`: the slow chain has come as far as the fast one but for literals of
no class, which write the text and add the value to what is extracted. -/
inductive Owes : Chain → Text → Text → Chain → Prop
  | nothing (chain : Chain) : Owes chain [] [] chain
  | fixed {d : Char} {slow fast : Chain} {text value : Text} :
      CharClass.alphanumeric.accepts d = false → Owes slow text value fast →
      Owes (.fixed d :: slow) (d :: text) (d :: value) fast
  | free {d : Char} {slow fast : Chain} {text value : Text} :
      CharClass.alphanumeric.accepts d = false → Owes slow text value fast →
      Owes (.free d :: slow) (d :: text) value fast

/-- `Restores chain value text extracted left`: offering the characters of the value, and completing
literals behind them, writes the text, adds what is extracted, and leaves the last chain. -/
def Restores (chain : Chain) (value text extracted : Text) (left : Chain) : Prop :=
  ∃ events reached steps, Trace chain (value.map (·, true)) events reached ∧
    Trail reached steps left ∧
    (events.flatMap Event.written ++ steps.flatMap fun s => s.insert.getD []) = text ∧
    (events.flatMap Event.extracted ++ steps.flatMap fun s => s.value.getD []) = extracted

variable {c : Char} {chain slow mid fast left : Chain} {step : Step}
  {text text' value value' stored written extracted : Text}

/-! ### Chains that owe literals -/

theorem Owes.trans (h : Owes slow text value mid) (h' : Owes mid text' value' fast) :
    Owes slow (text ++ text') (value ++ value') fast := by
  induction h with
  | nothing => exact h'
  | fixed hd _ ih => exact .fixed hd (ih h')
  | free hd _ ih => exact .free hd (ih h')

/-- What is owed is completed. -/
theorem Owes.trail (h : Owes slow text value fast) :
    ∃ steps, Trail slow steps fast ∧ (steps.flatMap fun s => s.insert.getD []) = text ∧
      (steps.flatMap fun s => s.value.getD []) = value := by
  induction h with
  | nothing chain => exact ⟨[], .stop chain, rfl, rfl⟩
  | fixed _ _ ih =>
    obtain ⟨steps, ht, rfl, rfl⟩ := ih
    exact ⟨_, .fixed _ ht, rfl, rfl⟩
  | free _ _ ih =>
    obtain ⟨steps, ht, rfl, rfl⟩ := ih
    exact ⟨_, .free _ ht, rfl, rfl⟩

/-! ### Offers behind which a value is restored -/

theorem Owes.restores (h : Owes slow text value left) : Restores slow [] text value left := by
  obtain ⟨steps, ht, htext, hvalue⟩ := h.trail
  exact ⟨[], slow, steps, .done slow, ht, htext, hvalue⟩

theorem Restores.take (ho : Offer c chain (some step)) (hc : step.consumed = true)
    (h : Restores step.next value text extracted left) :
    Restores chain (c :: value) (c :: text) (step.value.getD [] ++ extracted) left := by
  obtain ⟨events, reached, steps, ht, htrail, rfl, rfl⟩ := h
  refine ⟨_, reached, steps, .consume ho hc ht, htrail, ?_, ?_⟩
  · rw [List.flatMap_cons, Event.written, Option.bind_some, ho.insert_of_consume hc]
    rfl
  · rw [List.flatMap_cons, List.append_assoc]
    rfl

theorem Restores.pass (ho : Offer c chain (some step)) (hc : step.consumed = false)
    (h : Restores step.next (c :: value) text extracted left) :
    Restores chain (c :: value) (step.insert.getD [] ++ text) (step.value.getD [] ++ extracted)
      left := by
  obtain ⟨events, reached, steps, ht, htrail, rfl, rfl⟩ := h
  refine ⟨_, reached, steps, .pass ho hc ht, htrail, ?_, ?_⟩
  · rw [List.flatMap_cons, List.append_assoc]
    rfl
  · rw [List.flatMap_cons, List.append_assoc]
    rfl

/-- **A character is offered to a chain that owes literals.** If it is one of them, it is used up
there and the literals behind that one are still owed; otherwise all of them are written. -/
theorem Owes.restores_cons (h : Owes slow text value fast)
    (htake : ∀ {mid text' value'}, CharClass.alphanumeric.accepts c = false →
      Owes mid text' value' fast → Restores mid stored (text' ++ written) (value' ++ extracted) left)
    (hpass : Restores fast (c :: stored) written extracted left) :
    Restores slow (c :: stored) (text ++ written) (value ++ extracted) left := by
  induction h with
  | nothing => exact hpass
  | @fixed d slow fast text value hd hslow ih =>
    cases hdc : d == c with
    | true =>
      obtain rfl := beq_iff_eq.mp hdc
      exact .take (.fixed d slow) hdc (htake hd hslow)
    | false => exact .pass (.fixed d slow) hdc (ih htake hpass)
  | @free d slow fast text value hd hslow ih =>
    cases hdc : d == c with
    | true =>
      obtain rfl := beq_iff_eq.mp hdc
      exact .take (.free d slow) hdc (htake hd hslow)
    | false => exact .pass (.free d slow) hdc (ih htake hpass)

/-! ### Restoring what is kept -/

/-- **A chain restores what it keeps**, also if it has been reached with literals that are still
owed. Free literals that a text has passed are owed, since the value does not offer them, and a
fixed literal is owed if it was used up by a literal that was owed. -/
theorem Keeps.restores (h : Keeps fast written stored left) (hno : ∀ s ∈ fast, s.kind ≠ .optional)
    (hfree : ∀ d, Slot.free d ∈ fast → CharClass.alphanumeric.accepts d = false)
    (howes : Owes slow text value fast) :
    Restores slow stored (text ++ written) (value ++ stored) left := by
  induction h generalizing slow text value with
  | done =>
    rw [List.append_nil, List.append_nil]
    exact howes.restores
  | @take fast left c step written stored ho hc _ ih =>
    have hnext {slow : Chain} {text value : Text} (howes : Owes slow text value step.next) :
        Restores slow stored (text ++ written) (value ++ stored) left :=
      ih (fun s hs => hno s (ho.next_suffix.subset hs))
        (fun d hd => hfree d (ho.next_suffix.subset hd)) howes
    cases ho with
    | fixed d rest =>
      obtain rfl := beq_iff_eq.mp hc
      -- if a literal that is owed takes the character, this one is owed from there on
      refine howes.restores_cons ?_ (.take (.fixed d rest) hc (hnext (.nothing rest)))
      intro mid text value hd hmid
      have hrest := hnext (hmid.trans (.fixed hd (.nothing rest)))
      rw [List.append_assoc, List.append_assoc] at hrest
      exact hrest
    | free d rest =>
      obtain rfl := beq_iff_eq.mp hc
      -- the value does not hold the literal, so nothing is offered and one literal more is owed
      have hd := hfree d List.mem_cons_self
      have hrest := hnext (howes.trans (.free hd (.nothing rest)))
      rw [List.append_assoc, List.append_nil] at hrest
      exact hrest
    | value rest hk =>
      -- no literal that is owed is of the class, so nothing is owed behind this place
      refine howes.restores_cons (fun hd => ?_) (.take (.value rest hk) rfl (hnext (.nothing rest)))
      cases hd.symm.trans (CharClass.accepts_alphanumeric _ hk)
    | ellipsis hk =>
      refine howes.restores_cons (fun hd => ?_) (.take (.ellipsis hk) rfl (hnext (.nothing _)))
      cases hd.symm.trans (CharClass.accepts_alphanumeric _ hk)
    | optional _ _ => exact absurd rfl (hno _ List.mem_cons_self)
    | optionalSkip _ _ => cases hc
  | skip _ _ _ => exact absurd rfl (hno _ List.mem_cons_self)

end Chain

variable {m : Mask} {value text : Text} {left : Chain}

/-- A text that is restored from a value is the result for this value. -/
theorem apply_of_restores {extracted : Text} (h : m.chain.Regular)
    (hr : Restores m.chain value text extracted left)
    (hfilled : left.any Slot.isMandatory = false) :
    ∃ r, m.apply (.atEnd value) true = .ok r ∧ r.formatted = .atEnd text ∧
      r.extracted = extracted ∧ r.complete = true := by
  obtain ⟨events, reached, steps, ht, htrail, rfl, rfl⟩ := hr
  have hreached := ht.regular h
  have hstop := (htrail.regular hreached).autocomplete_of_filled hfilled
  obtain ⟨r, hr, -, hformatted, hextracted, hcomplete⟩ :=
    apply_of_trace h ht (htrail.finish hreached hstop)
  exact ⟨r, hr, hformatted, hextracted, by rw [hcomplete, hfilled]; rfl⟩

/-- **A stored value is restored.** Without optional slots, and with free literals that no class
holds, a complete text is restored from its extracted value: with completion, the value is formatted
to the same text, extracted as it is, and complete. -/
theorem restore_extracted {format : Text} {w : Weights} (h : Mask.compile format w = .ok m)
    (hno : ∀ s ∈ m.chain, s.kind ≠ .optional)
    (hfree : ∀ d, Slot.free d ∈ m.chain → CharClass.alphanumeric.accepts d = false)
    (text : Text) (autocomplete : Bool) {r : Result}
    (hr : m.apply (.atEnd text) autocomplete = .ok r) (hc : r.complete = true) :
    ∃ r', m.apply (.atEnd r.extracted) true = .ok r' ∧ r'.formatted = r.formatted ∧
      r'.extracted = r.extracted ∧ r'.complete = true := by
  have hreg := Mask.regular_of_compile h
  obtain ⟨events, reached, -, ht⟩ := hreg.feed (text.map (·, true))
  obtain ⟨steps, left, hf, htrail, -⟩ := (ht.regular hreg).finish autocomplete
  obtain ⟨s, hs, -, hformatted, hextracted, hcomplete⟩ := apply_of_trace hreg ht hf
  obtain rfl := Except.ok.inj (hs.symm.trans hr)
  -- without optional slots, what was written and completed is kept by the whole chain
  obtain ⟨reached', hk, hl⟩ := ht.keeps_of_separated (separated_of_no_optional hno)
  obtain rfl := hl.eq_of_no_optional fun s hs => hno s (hk.suffix.subset hs)
  have hrestores := (hk.append htrail.keeps).restores hno hfree (.nothing m.chain)
  rw [List.nil_append, List.nil_append, ← hextracted] at hrestores
  have hfilled : left.any Slot.isMandatory = false := by
    rw [hcomplete, Bool.not_eq_true'] at hc
    exact hc
  rw [hformatted]
  exact apply_of_restores hreg hrestores hfilled

/-- A free hyphen takes the stored hyphen of the fixed one, and a full stop is completed. -/
theorem restore_extracted_hyphens :
    ∃ (m : Mask) (r r' : Result),
      Mask.compile ['[', '0', ']', '-', '\x7b', '-', '\x7d', '[', '0', ']', '.'] {} = .ok m ∧
      (∀ s ∈ m.chain, s.kind ≠ .optional) ∧
      (∀ d, Slot.free d ∈ m.chain → CharClass.alphanumeric.accepts d = false) ∧
      m.apply (.atEnd ['1', '2']) true = .ok r ∧ r.complete = true ∧
      r.formatted = .atEnd ['1', '-', '-', '2', '.'] ∧ r.extracted = ['1', '-', '2'] ∧
      m.apply (.atEnd r.extracted) true = .ok r' ∧ r'.formatted = r.formatted ∧
      r'.extracted = r.extracted ∧ r'.complete = true := by
  have hcompile : Mask.compile ['[', '0', ']', '-', '\x7b', '-', '\x7d', '[', '0', ']', '.'] {} =
      .ok ⟨_, {}, [.value .numeric, .free '-', .fixed '-', .value .numeric, .free '.',
        .endOfLine]⟩ := rfl
  have hno : ∀ s ∈ [Slot.value .numeric, .free '-', .fixed '-', .value .numeric, .free '.',
      .endOfLine], s.kind ≠ .optional := by decide
  have hfree : ∀ d, Slot.free d ∈ [Slot.value .numeric, .free '-', .fixed '-', .value .numeric,
      .free '.', .endOfLine] → CharClass.alphanumeric.accepts d = false := by
    intro d hd
    have hd : d = '-' ∨ d = '.' := by
      simpa [Slot.value, Slot.free, Slot.fixed, Slot.endOfLine] using hd
    rcases hd with rfl | rfl <;> decide +kernel
  obtain ⟨r', hr', hformatted, hextracted, hcomplete⟩ :=
    restore_extracted hcompile hno hfree ['1', '2'] true rfl rfl
  exact ⟨_, _, r', hcompile, hno, hfree, rfl, rfl, rfl, rfl, hr', hformatted, hextracted,
    hcomplete⟩

end TextMask
