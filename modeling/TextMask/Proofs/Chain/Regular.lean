import TextMask.Mask.Basic
import TextMask.Proofs.Chain.Canonical

/-!
# Regular chains

A chain of literals and of places for characters that is closed by the end of the line or by an
ellipsis, of whatever class, is regular. On such a chain nothing that a slot is asked for is ever
missing.

* `Chain.Regular`: the chains of this form, one rule for each kind of slot;
* `Linked.regular`, `Mask.regular_of_compile`: formats compile to such chains only;
* `Chain.Offer`: the table of acceptance, one rule for each kind of slot and each thing that it
  can do with a character;
* `Regular.offer`: offering a character to a regular chain succeeds, by a rule of the table;
* `Regular.isFilled_eq`: a regular chain is filled if none of its slots is mandatory.
-/

namespace TextMask

namespace Chain

/-- Closed chains of literals and of places for characters. -/
inductive Regular : Chain → Prop
  | endOfLine : Regular [.endOfLine]
  | ellipsis (k : CharClass) : Regular [.ellipsis k]
  | fixed (d : Char) {rest : Chain} : Regular rest → Regular (.fixed d :: rest)
  | free (d : Char) {rest : Chain} : Regular rest → Regular (.free d :: rest)
  | value (k : CharClass) {rest : Chain} : Regular rest → Regular (.value k :: rest)
  | optional (k : CharClass) {rest : Chain} : Regular rest → Regular (.optional k :: rest)

theorem Regular.ne_nil {chain : Chain} (h : Regular chain) : chain ≠ [] := by
  cases h <;> exact List.cons_ne_nil _ _

end Chain

/-! ### Formats compile to regular chains -/

theorem Slot.Inner.regular_cons {s : Slot} {rest : Chain} (hs : s.Inner) (h : rest.Regular) :
    Chain.Regular (s :: rest) := by
  rcases hs.cases with ⟨d, rfl⟩ | ⟨d, rfl⟩ | ⟨⟨k, b⟩, rfl⟩
  · exact .fixed d h
  · exact .free d h
  · cases b with
    | false => exact .value k h
    | true => exact .optional k h

theorem Chain.Linked.regular {chain : Chain} (h : chain.Linked) : chain.Regular := by
  induction h with
  | endOfLine => exact .endOfLine
  | ellipsis => exact .ellipsis _
  | inherited s => exact (Slot.inner_symbol s).regular_cons (.ellipsis _)
  | cons hs _ ih => exact hs.regular_cons ih

theorem Mask.compile_eq_ok_iff {format : Text} {w : Weights} {m : Mask} :
    Mask.compile format w = .ok m ↔
      Chain.compile format = .ok m.chain ∧ m.format = format ∧ m.weights = w := by
  constructor
  · intro h
    obtain ⟨chain, hchain, rfl⟩ := Except.map_eq_ok_iff.mp h
    exact ⟨hchain, rfl, rfl⟩
  · rintro ⟨hchain, rfl, rfl⟩
    exact Except.map_eq_ok_iff.mpr ⟨m.chain, hchain, rfl⟩

theorem Mask.compile_eq_error_iff {format : Text} {w : Weights} {e : FormatError} :
    Mask.compile format w = .error e ↔ Chain.compile format = .error e :=
  Except.map_eq_error_iff

/-- **Masks have regular chains.** -/
theorem Mask.regular_of_compile {format : Text} {w : Weights} {m : Mask}
    (h : Mask.compile format w = .ok m) : m.chain.Regular := by
  obtain ⟨hchain, -, -⟩ := Mask.compile_eq_ok_iff.mp h
  exact (Chain.linked_of_compile hchain).regular

/-! ### The table of acceptance -/

namespace Chain

/-- What a chain does with a character that is offered to it. A literal is written either way, and
uses the character up if it is the same; nothing happens to the chain if the character is
dropped. -/
inductive Offer (c : Char) : Chain → Option Step → Prop
  | fixed (d : Char) (rest : Chain) :
      Offer c (.fixed d :: rest) (some ⟨some [d], d == c, some [d], rest⟩)
  | free (d : Char) (rest : Chain) :
      Offer c (.free d :: rest) (some ⟨some [d], d == c, none, rest⟩)
  | value {k : CharClass} (rest : Chain) (h : k.accepts c = true) :
      Offer c (.value k :: rest) (some ⟨some [c], true, some [c], rest⟩)
  | valueDrop {k : CharClass} (rest : Chain) (h : k.accepts c = false) :
      Offer c (.value k :: rest) none
  | optional {k : CharClass} (rest : Chain) (h : k.accepts c = true) :
      Offer c (.optional k :: rest) (some ⟨some [c], true, some [c], rest⟩)
  | optionalSkip {k : CharClass} (rest : Chain) (h : k.accepts c = false) :
      Offer c (.optional k :: rest) (some ⟨none, false, none, rest⟩)
  | ellipsis {k : CharClass} (h : k.accepts c = true) :
      Offer c [.ellipsis k] (some ⟨some [c], true, some [c], [.ellipsis k]⟩)
  | ellipsisDrop {k : CharClass} (h : k.accepts c = false) :
      Offer c [.ellipsis k] none
  | endOfLine : Offer c [.endOfLine] none

/-- A slot that is no ellipsis is left for the slots behind it. -/
theorem successor_of_ne_nil {s : Slot} {rest : Chain} (he : s.elliptical = false) (h : rest ≠ []) :
    s.successor rest = .ok rest := by
  cases rest with
  | nil => exact absurd rfl h
  | cons s' rest => simp only [Slot.successor, he, Bool.false_eq_true, if_false]

/-- **Offers succeed.** Offering a character to a regular chain follows the table. -/
theorem Regular.offer {chain : Chain} (h : chain.Regular) (c : Char) :
    ∃ outcome, chain.accept c = .ok outcome ∧ Offer c chain outcome := by
  cases h with
  | endOfLine => exact ⟨none, rfl, .endOfLine⟩
  | ellipsis k =>
    cases hk : k.accepts c with
    | true =>
      refine ⟨_, ?_, .ellipsis hk⟩
      show (if k.accepts c then _ else _) = _
      rw [hk]; rfl
    | false =>
      refine ⟨_, ?_, .ellipsisDrop hk⟩
      show (if k.accepts c then _ else _) = _
      rw [hk]; rfl
  | @fixed d rest hr =>
    refine ⟨_, ?_, .fixed d rest⟩
    show some <$> (Slot.successor (.fixed d) rest).map _ = _
    rw [successor_of_ne_nil rfl hr.ne_nil]
    show Except.ok (some (Step.mk (some [d]) (some [d] == some [c]) (some [d]) rest)) = _
    rw [show (some [d] == some [c]) = (d == c) by simp]
  | @free d rest hr =>
    refine ⟨_, ?_, .free d rest⟩
    show some <$> (Slot.successor (.free d) rest).map _ = _
    rw [successor_of_ne_nil rfl hr.ne_nil]
    show Except.ok (some (Step.mk (some [d]) (some [d] == some [c]) none rest)) = _
    rw [show (some [d] == some [c]) = (d == c) by simp]
  | @value k rest hr =>
    cases hk : k.accepts c with
    | true =>
      refine ⟨_, ?_, .value rest hk⟩
      show (if k.accepts c then some <$> (Slot.successor (.value k) rest).map _ else _) = _
      rw [hk, successor_of_ne_nil rfl hr.ne_nil]; rfl
    | false =>
      refine ⟨_, ?_, .valueDrop rest hk⟩
      show (if k.accepts c then _ else _) = _
      rw [hk]; rfl
  | @optional k rest hr =>
    cases hk : k.accepts c with
    | true =>
      refine ⟨_, ?_, .optional rest hk⟩
      show (if k.accepts c then some <$> (Slot.successor (.optional k) rest).map _ else _) = _
      rw [hk, successor_of_ne_nil rfl hr.ne_nil]; rfl
    | false =>
      refine ⟨_, ?_, .optionalSkip rest hk⟩
      show (if k.accepts c then _ else some <$> (Slot.successor (.optional k) rest).map _) = _
      rw [hk, successor_of_ne_nil rfl hr.ne_nil]; rfl

variable {c : Char} {chain : Chain} {step : Step}

/-- The table has one answer for each character. -/
theorem Offer.unique {outcome outcome' : Option Step} (ho : Offer c chain outcome)
    (ho' : Offer c chain outcome') : outcome = outcome' := by
  cases ho <;> cases ho' <;> simp_all

/-- What a slot leaves behind is regular again. -/
theorem Offer.regular_next (ho : Offer c chain (some step)) (h : chain.Regular) :
    step.next.Regular := by
  cases ho with
  | ellipsis _ => exact h
  | fixed _ _ | free _ _ | value _ _ | optional _ _ | optionalSkip _ _ =>
    cases h
    assumption

theorem Offer.next_suffix (ho : Offer c chain (some step)) : step.next <:+ chain := by
  cases ho with
  | ellipsis _ => exact List.suffix_refl _
  | fixed _ _ | free _ _ | value _ _ | optional _ _ | optionalSkip _ _ =>
    exact List.suffix_cons _ _

/-- A slot that uses a character up writes it. -/
theorem Offer.insert_of_consume (ho : Offer c chain (some step)) (hc : step.consumed = true) :
    step.insert = some [c] := by
  cases ho with
  | fixed d rest => rw [beq_iff_eq.mp hc]
  | free d rest => rw [beq_iff_eq.mp hc]
  | value _ _ | optional _ _ | ellipsis _ => rfl
  | optionalSkip _ _ => cases hc

end Chain

/-! ### Kinds of slots -/

namespace Slot

/-- Whether the slot writes a literal. -/
def isLiteral (s : Slot) : Bool := s.kind == .fixed || s.kind == .free

/-- Whether the slot can be left without using up a character. -/
def isPassable (s : Slot) : Bool := s.isLiteral || s.kind == .optional

/-- Whether the slot has to be filled in a complete text. -/
def isMandatory (s : Slot) : Bool := s.isLiteral || (s.kind == .value && !s.elliptical)

end Slot

/-- A slot that is passed without using up the character is passable and no ellipsis. -/
theorem Chain.Offer.eq_cons_of_pass {c : Char} {chain : Chain} {step : Step}
    (ho : Offer c chain (some step)) (hc : step.consumed = false) :
    ∃ s, chain = s :: step.next ∧ s.elliptical = false ∧ s.isPassable = true := by
  cases ho with
  | fixed d rest => exact ⟨_, rfl, rfl, rfl⟩
  | free d rest => exact ⟨_, rfl, rfl, rfl⟩
  | optionalSkip rest _ => exact ⟨_, rfl, rfl, rfl⟩
  | value _ _ | optional _ _ | ellipsis _ => cases hc

/-- **Completeness slot by slot.** A regular chain is filled if none of its slots is mandatory. -/
theorem Chain.Regular.isFilled_eq {chain : Chain} (h : chain.Regular) :
    chain.isFilled = .ok (!chain.any Slot.isMandatory) := by
  induction h with
  | endOfLine => rfl
  | ellipsis k => rfl
  | fixed d hr ih => rfl
  | free d hr ih => rfl
  | value k hr ih => rfl
  | @optional k rest hr ih =>
    show ((Slot.successor (.optional k) rest).mapError _ >>= fun _ => isFilled rest) = _
    rw [successor_of_ne_nil rfl hr.ne_nil]
    exact ih

end TextMask
