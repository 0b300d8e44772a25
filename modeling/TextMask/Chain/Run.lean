import TextMask.CaretText
import TextMask.Chain.Basic
import TextMask.Policy.Basic

/-!
# Runs of a text through a chain

A run offers the characters of a text, one by one, to the slots of a chain. Each offer is an
`Event`: the character is consumed, or dropped, or a slot is passed and the character is offered
again. What a run writes, what it extracts and what it scores are read off its events.

Main definitions:

* `Chain.settle`: the events of one character;
* `Chain.feed`: the events of a text;
* `Chain.trail`: the literals that come next without any input;
* `Chain.isFilled`: whether no slot that has to be filled is left;
* `Chain.run`: a whole run.
-/

namespace TextMask

/-- Why a run cannot be finished. -/
inductive RunError where
  /-- A slot lacks something. -/
  | slot (error : SlotError)
  /-- An elliptical slot is passed without end. -/
  | endless (kind : SlotKind)
  /-- The caret of the output lies outside the output. -/
  | caret (error : CaretError)
  deriving DecidableEq, Repr

/-- The error as it is reported. -/
def RunError.message : RunError → String
  | .slot e => e.message
  | .endless kind => s!"{kind.name} state is passed without end"
  | .caret e => e.message

/-- An offer of a character: whether the character stands before the caret, and the effect of the
slot, if the slot did not reject the character. -/
structure Event where
  beforeCaret : Bool
  step : Option Step
  deriving DecidableEq, Repr

namespace Event

/-- Whether the character was used up by a slot. -/
def isConsumed (e : Event) : Bool := e.step.any (·.consumed)

/-- Whether the character was rejected. -/
def isDropped (e : Event) : Bool := e.step.isNone

/-- Whether a literal was written in front of the character. -/
def isInserted (e : Event) : Bool := e.step.any fun s => !s.consumed && s.insert.isSome

/-- Whether a slot was left empty. -/
def isSkipped (e : Event) : Bool := e.step.any fun s => !s.consumed && s.insert.isNone

/-- The text that the event adds to the output. -/
def written (e : Event) : Text := (e.step.bind (·.insert)).getD []

/-- The text that the event adds to the extracted value. -/
def extracted (e : Event) : Text := (e.step.bind (·.value)).getD []

/-- How far the event moves the caret. Only what happens before the caret does. -/
def caretShift (e : Event) : Int :=
  if e.beforeCaret then
    if e.isDropped then -1 else if e.isInserted then 1 else 0
  else 0

/-- The score of the event. -/
def score (w : Weights) (e : Event) : Int :=
  if e.isDropped then w.dropped else if e.isConsumed then w.consumed else w.notConsumed

end Event

/-- A finished run: the events of the text, the slots that were completed after it, and the chain
that is left. -/
structure Run where
  events : List Event
  completed : List Step
  left : Chain
  deriving DecidableEq, Repr

namespace Chain

/-- Offers a character to one slot after the other, until it is consumed or dropped. The answer
holds the effects and the chain that is left. -/
def settle (c : Char) : Chain → Except RunError (List (Option Step) × Chain)
  | [] => .ok ([none], [])
  | s :: rest => do
    match ← (accept c (s :: rest)).mapError .slot with
    | none => return ([none], s :: rest)
    | some step =>
      if step.consumed then return ([some step], step.next)
      else if s.elliptical then .error (.endless s.kind)
      else
        let (steps, left) ← settle c rest
        return (some step :: steps, left)

/-- A slot that is passed leaves the character to the chain to which it leads. -/
theorem settle_pass {c : Char} {s : Slot} {rest : Chain} {step : Step}
    (ha : accept c (s :: rest) = .ok (some step)) (hc : step.consumed = false)
    (he : s.elliptical = false) :
    settle c (s :: rest) = (fun r => (some step :: r.1, r.2)) <$> settle c step.next := by
  have hnext : step.next = rest := by rw [accept_next ha, he]; rfl
  rw [settle, ha, hnext]
  show (if step.consumed then pure ([some step], step.next) else
    if s.elliptical then Except.error (RunError.endless s.kind) else
      settle c rest >>= fun r => pure (some step :: r.1, r.2)) = _
  rw [hc, he]
  rfl

/-- Offers the characters of a text, each marked with whether it stands before the caret. -/
def feed : Chain → List (Char × Bool) → Except RunError (List Event × Chain)
  | chain, [] => .ok ([], chain)
  | chain, (c, beforeCaret) :: rest => do
    let (steps, next) ← chain.settle c
    let (events, left) ← next.feed rest
    return (steps.map (⟨beforeCaret, ·⟩) ++ events, left)

/-- The slots that write their literals without any input, and the chain behind them. -/
def trail : Chain → Except RunError (List Step × Chain)
  | [] => .ok ([], [])
  | s :: rest => do
    match ← (autocomplete (s :: rest)).mapError .slot with
    | none => return ([], s :: rest)
    | some step =>
      if s.elliptical then .error (.endless s.kind)
      else
        let (steps, left) ← trail rest
        return (step :: steps, left)

/-- A literal that is completed is followed by what is completed in the chain to which it leads. -/
theorem trail_cons {s : Slot} {rest : Chain} {step : Step}
    (ha : autocomplete (s :: rest) = .ok (some step)) (he : s.elliptical = false) :
    trail (s :: rest) = (fun r => (step :: r.1, r.2)) <$> trail step.next := by
  have hnext : step.next = rest := by rw [autocomplete_next ha, he]; rfl
  rw [trail, ha, hnext]
  show (if s.elliptical then Except.error (RunError.endless s.kind) else
    trail rest >>= fun r => pure (step :: r.1, r.2)) = _
  rw [he]
  rfl

/-- Whether the chain has no slot that still has to be filled before the end of the line or an
ellipsis. -/
def isFilled : Chain → Except RunError Bool
  | [] => .ok true
  | s :: rest =>
    match s.kind with
    | .endOfLine => .ok true
    | .value => .ok s.elliptical
    | .fixed | .free => .ok false
    | .optional => do
      let _ ← (s.successor rest).mapError .slot
      if s.elliptical then .error (.endless s.kind) else isFilled rest

/-- Runs a text through the chain. Literals that come next are completed if that is asked for and
the last character stands before the caret. -/
def run (chain : Chain) (t : CaretText) (autocomplete : Bool) : Except RunError Run := do
  let (events, reached) ← chain.feed t.marked
  if autocomplete && t.lastBeforeCaret then
    let (completed, left) ← reached.trail
    return ⟨events, completed, left⟩
  else
    return ⟨events, [], reached⟩

end Chain

namespace Run

/-- The output of the run. -/
def written (r : Run) : Text :=
  r.events.flatMap Event.written ++ r.completed.flatMap fun s => s.insert.getD []

/-- The value that the run extracts. -/
def extracted (r : Run) : Text :=
  r.events.flatMap Event.extracted ++ r.completed.flatMap fun s => s.value.getD []

/-- How far the run moves the caret. -/
def caretShift (r : Run) : Int :=
  (r.events.map Event.caretShift).foldr (· + ·) 0 + r.completed.countP (·.insert.isSome)

/-- The score of the run. -/
def affinity (w : Weights) (r : Run) : Int := (r.events.map (Event.score w)).foldr (· + ·) 0

end Run

end TextMask
