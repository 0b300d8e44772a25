import TextMask.Slot

/-!
# Chains of slots

A chain lists the slots of a mask from a place on; the rest of the list after a slot is what
follows it. Main definitions:

* `Chain.accept`: what happens when a character is offered to the first slot;
* `Chain.autocomplete`: what the first slot writes without being offered anything;
* `Step`: the effect of a slot that was passed.
-/

namespace TextMask

/-- The slots of a mask from a place on. -/
abbrev Chain := List Slot

/-- The effect of a slot that was passed: the text it adds to the output, whether it used up the
offered character, the text it adds to the extracted value, and the chain that is reached. -/
structure Step where
  insert : Option Text
  consumed : Bool
  value : Option Text
  next : Chain
  deriving DecidableEq, Repr

namespace Slot

/-- The chain that is reached when the slot is left: the slot itself if it is elliptical. -/
def successor (s : Slot) (rest : Chain) : Except SlotError Chain :=
  if s.elliptical then .ok (s :: rest)
  else
    match rest with
    | [] => .error (.noSuccessor s.kind)
    | _ :: _ => .ok rest

/-- A slot is left for what stands behind it, unless it is elliptical. -/
theorem eq_of_successor {s : Slot} {rest next : Chain} (h : s.successor rest = .ok next) :
    next = if s.elliptical then s :: rest else rest := by
  cases he : s.elliptical with
  | true =>
    rw [successor.eq_def, if_pos he] at h
    exact (Except.ok.inj h).symm
  | false =>
    rw [successor.eq_def, he] at h
    cases rest with
    | nil => cases h
    | cons s' rest => exact (Except.ok.inj h).symm

/-- Writes the literal of a slot and leaves it. -/
def write (s : Slot) (rest : Chain) (consumed : Bool) (value : Option Text) :
    Except SlotError Step :=
  (s.successor rest).map fun next => ⟨s.literal, consumed, value, next⟩

/-- Puts a character into a slot and leaves it. -/
def fill (s : Slot) (rest : Chain) (c : Char) : Except SlotError Step :=
  (s.successor rest).map fun next => ⟨some [c], true, some [c], next⟩

/-- Leaves a slot empty. -/
def skip (s : Slot) (rest : Chain) : Except SlotError Step :=
  (s.successor rest).map fun next => ⟨none, false, none, next⟩

/-- A slot with a class takes the character or not. -/
theorem of_valueClass {s : Slot} {c : Char} {taken left : Except SlotError (Option Step)}
    {outcome : Option Step}
    (h : (do if (← s.valueClass).accepts c then taken else left) = .ok outcome) :
    taken = .ok outcome ∨ left = .ok outcome := by
  cases hk : s.valueClass with
  | error e =>
    rw [hk] at h
    cases h
  | ok k =>
    rw [hk] at h
    change (if k.accepts c then taken else left) = .ok outcome at h
    split at h
    · exact Or.inl h
    · exact Or.inr h

/-- Whatever a slot does, it leads to its successor. -/
theorem next_eq {s : Slot} {rest : Chain} {f : Chain → Step} {step : Step}
    (hf : ∀ next, (f next).next = next)
    (h : some <$> (s.successor rest).map f = .ok (some step)) :
    step.next = if s.elliptical then s :: rest else rest := by
  cases hnext : s.successor rest with
  | error e =>
    rw [hnext] at h
    cases h
  | ok next =>
    rw [hnext] at h
    obtain rfl := Option.some.inj (Except.ok.inj h)
    rw [hf, eq_of_successor hnext]

end Slot

namespace Chain

/-- Offers a character to the first slot. The answer is nothing if the slot rejects it. A literal
is written whether or not it is the character; it uses the character up if it is. -/
def accept (c : Char) : Chain → Except SlotError (Option Step)
  | [] => .ok none
  | s :: rest =>
    match s.kind with
    | .fixed => some <$> s.write rest (s.literal == some [c]) s.literal
    | .free => some <$> s.write rest (s.literal == some [c]) none
    | .value => do
      if (← s.valueClass).accepts c then some <$> s.fill rest c else .ok none
    | .optional => do
      if (← s.valueClass).accepts c then some <$> s.fill rest c else some <$> s.skip rest
    | .endOfLine => .ok none

/-- Lets the first slot write its literal, if it has to have one. -/
def autocomplete : Chain → Except SlotError (Option Step)
  | [] => .ok none
  | s :: rest =>
    match s.kind with
    | .fixed => some <$> s.write rest false s.literal
    | .free => some <$> s.write rest false none
    | .value | .optional | .endOfLine => .ok none

/-- **What an offer leads to**: what stands behind the slot, unless it is elliptical. -/
theorem accept_next {c : Char} {s : Slot} {rest : Chain} {step : Step}
    (h : accept c (s :: rest) = .ok (some step)) :
    step.next = if s.elliptical then s :: rest else rest := by
  rw [accept] at h
  split at h
  · exact Slot.next_eq (fun _ => rfl) h
  · exact Slot.next_eq (fun _ => rfl) h
  · rcases Slot.of_valueClass h with hfill | hnone
    · exact Slot.next_eq (fun _ => rfl) hfill
    · cases hnone
  · rcases Slot.of_valueClass h with hfill | hskip
    · exact Slot.next_eq (fun _ => rfl) hfill
    · exact Slot.next_eq (fun _ => rfl) hskip
  · cases h

/-- What a literal that is completed leads to. -/
theorem autocomplete_next {s : Slot} {rest : Chain} {step : Step}
    (h : autocomplete (s :: rest) = .ok (some step)) :
    step.next = if s.elliptical then s :: rest else rest := by
  rw [autocomplete] at h
  split at h
  · exact Slot.next_eq (fun _ => rfl) h
  · exact Slot.next_eq (fun _ => rfl) h
  · cases h
  · cases h
  · cases h

/-- The chain behind the first slot. -/
def successor : Chain → Except SlotError Chain
  | [] => .ok []
  | s :: rest => s.successor rest

/-- The slots before the end of the line. -/
def slots (chain : Chain) : List Slot := chain.takeWhile (·.kind != .endOfLine)

theorem slots_cons {s : Slot} {rest : Chain} (hs : (s.kind != .endOfLine) = true) :
    slots (s :: rest) = s :: slots rest :=
  List.takeWhile_cons_of_pos hs

end Chain

end TextMask
