import TextMask.Proofs.Chain.Trace

/-!
# Texts that a chain keeps

A run over a text that is already formatted should leave it as it is. A chain keeps a text if every
character finds a slot, and no literal has to be written in front of one. Optional slots may stay
empty on the way.

* `Chain.Keeps`: the texts that a chain keeps, with what is extracted from them and the chain that
  is reached;
* `Keeps.trace`: a run over such a text writes just this text;
* `Offer.keeps`: a character that a slot has written finds its place in the same slot again;
* `Chain.Lags`: a chain that still has optional slots in front of another one;
* `Gapless`: the runs that wrote nothing behind an optional slot that was left empty;
* `Trace.keeps_of_gapless`: what such a run has written is kept.
-/

namespace TextMask.Chain

/-- `Keeps chain text value left`: every character of the text is taken by a slot, the slots that
are left empty on the way are optional and do not take the character at which they are passed, and
what is extracted is the value. -/
inductive Keeps : Chain → Text → Text → Chain → Prop
  | done (chain : Chain) : Keeps chain [] [] chain
  | take {chain left : Chain} {c : Char} {step : Step} {text value : Text} :
      Offer c chain (some step) → step.consumed = true → Keeps step.next text value left →
      Keeps chain (c :: text) (step.value.getD [] ++ value) left
  | skip {k : CharClass} {rest left : Chain} {c : Char} {text value : Text} :
      k.accepts c = false → Keeps rest (c :: text) value left →
      Keeps (.optional k :: rest) (c :: text) value left

/-- `Lags slow fast`: the slow chain has come as far as the fast one but for optional slots. -/
inductive Lags : Chain → Chain → Prop
  | refl (chain : Chain) : Lags chain chain
  | optional (k : CharClass) {slow fast : Chain} : Lags slow fast → Lags (.optional k :: slow) fast

variable {c d : Char} {chain mid left left' rest slow fast : Chain} {step : Step} {k : CharClass}
  {marked : List (Char × Bool)} {events : List Event} {text text' value value' : Text}

/-! ### Runs over texts that are kept -/

/-- A literal takes its own character, and a fixed one is extracted. -/
theorem Keeps.fixed (d : Char) (h : Keeps rest text value left) :
    Keeps (.fixed d :: rest) (d :: text) (d :: value) left := by
  have htake := Keeps.take (.fixed d rest) (beq_self_eq_true d) h
  exact htake

theorem Keeps.free (d : Char) (h : Keeps rest text value left) :
    Keeps (.free d :: rest) (d :: text) value left := by
  have htake := Keeps.take (.free d rest) (beq_self_eq_true d) h
  exact htake

theorem Keeps.suffix (h : Keeps chain text value left) : left <:+ chain := by
  induction h with
  | done => exact List.suffix_refl _
  | take ho _ _ ih => exact ih.trans ho.next_suffix
  | skip _ _ ih => exact ih.trans (List.suffix_cons _ _)

theorem Keeps.append (h : Keeps chain text value mid) (h' : Keeps mid text' value' left) :
    Keeps chain (text ++ text') (value ++ value') left := by
  induction h with
  | done => exact h'
  | take ho hc _ ih =>
    rw [List.append_assoc]
    exact .take ho hc (ih h')
  | skip hk _ ih => exact .skip hk (ih h')

/-- **A text that is kept is written as it is.** -/
theorem Keeps.trace (h : Keeps chain text value left) (b : Bool) :
    ∃ events, Trace chain (text.map (·, b)) events left ∧
      events.flatMap Event.written = text ∧ events.flatMap Event.extracted = value := by
  induction h with
  | done chain => exact ⟨[], .done chain, rfl, rfl⟩
  | @take chain left c step text value ho hc _ ih =>
    obtain ⟨events, ht, hwritten, hextracted⟩ := ih
    refine ⟨_, .consume ho hc ht, ?_, ?_⟩
    · rw [List.flatMap_cons, hwritten, Event.written, Option.bind_some, ho.insert_of_consume hc]
      rfl
    · rw [List.flatMap_cons, hextracted]
      rfl
  | @skip k rest left c text value hk _ ih =>
    obtain ⟨events, ht, hwritten, hextracted⟩ := ih
    exact ⟨_, .pass (.optionalSkip rest hk) rfl ht, hwritten, hextracted⟩

/-! ### Characters that were written -/

/-- What a slot has written, it takes when it is offered. -/
theorem Offer.keeps (ho : Offer c chain (some step)) (hi : step.insert.isSome = true)
    (h : Keeps step.next text value left) :
    Keeps chain (step.insert.getD [] ++ text) (step.value.getD [] ++ value) left := by
  cases ho with
  | fixed d rest => exact h.fixed d
  | free d rest => exact h.free d
  | value rest hk => exact .take (.value rest hk) rfl h
  | optional rest hk => exact .take (.optional rest hk) rfl h
  | ellipsis hk => exact .take (.ellipsis hk) rfl h
  | optionalSkip rest hk => cases hi

/-! ### Chains that lag behind -/

theorem Lags.trans (h : Lags slow mid) (h' : Lags mid fast) : Lags slow fast := by
  induction h with
  | refl => exact h'
  | optional k _ ih => exact .optional k (ih h')

theorem Lags.any_isMandatory (h : Lags slow fast) :
    slow.any Slot.isMandatory = fast.any Slot.isMandatory := by
  induction h with
  | refl => rfl
  | optional k _ ih => exact ih

/-- An optional slot has nothing to write. -/
theorem Lags.autocomplete (h : Lags slow fast) (hf : fast.autocomplete = .ok none) :
    slow.autocomplete = .ok none := by
  cases h with
  | refl => exact hf
  | optional k _ => rfl

/-- An optional slot in front of a text that does not begin with a character of its class. -/
theorem Keeps.behind_optional (h : Keeps rest text value left)
    (hd : ∀ d, text.head? = some d → k.accepts d = false) :
    ∃ left', Keeps (.optional k :: rest) text value left' ∧ Lags left' left := by
  cases h with
  | done => exact ⟨_, .done _, .optional k (.refl _)⟩
  | take ho hc h => exact ⟨_, .skip (hd _ rfl) (.take ho hc h), .refl _⟩
  | skip hk h => exact ⟨_, .skip (hd _ rfl) (.skip hk h), .refl _⟩

/-! ### Runs without gaps -/

/-- Nothing is written behind an optional slot that is left empty. -/
def Gapless : List Event → Prop
  | [] => True
  | e :: rest => (e.isSkipped = true → rest.flatMap Event.written = []) ∧ Gapless rest

instance decidableGapless : (events : List Event) → Decidable (Gapless events)
  | [] => isTrue trivial
  | _ :: rest =>
    have := decidableGapless rest
    inferInstanceAs (Decidable (_ ∧ _))

/-- **A run without gaps is kept**: its output leads through the chain again. -/
theorem Trace.keeps_of_gapless (ht : Trace chain marked events left) (hg : Gapless events) :
    ∃ left', Keeps chain (events.flatMap Event.written) (events.flatMap Event.extracted) left' ∧
      Lags left' left := by
  induction ht with
  | done chain => exact ⟨chain, .done chain, .refl chain⟩
  | drop ho _ ih => exact ih hg.2
  | consume ho hc _ ih =>
    obtain ⟨left', h, hl⟩ := ih hg.2
    exact ⟨left', ho.keeps (by rw [ho.insert_of_consume hc]; rfl) h, hl⟩
  | pass ho hc _ ih =>
    obtain ⟨left', h, hl⟩ := ih hg.2
    cases ho with
    | fixed d rest => exact ⟨left', Offer.keeps (.fixed d rest) rfl h, hl⟩
    | free d rest => exact ⟨left', Offer.keeps (.free d rest) rfl h, hl⟩
    | optionalSkip rest hk =>
      -- nothing was written behind the gap, so the slot may still be in front
      have hnil := hg.1 rfl
      obtain ⟨left'', h', hl'⟩ := h.behind_optional (fun d hd => by rw [hnil] at hd; cases hd)
      exact ⟨left'', h', hl'.trans hl⟩
    | value _ _ | optional _ _ | ellipsis _ => cases hc

end TextMask.Chain
