import TextMask.Chain.Basic

/-!
# Summary of a chain

What can be told about a mask without any input: its placeholder, the least and the greatest
length of its text and of its value, and its description. An elliptical slot has no length of its
own.
-/

namespace TextMask.Chain

/-- The mask as a text, up to the first ellipsis: literals as they are and a filler for every
character that is asked for. -/
def placeholder (chain : Chain) : Text :=
  (chain.slots.takeWhile (!·.elliptical)).flatMap Slot.filler

/-- The number of slots of the given kinds that have a length. -/
def count (kinds : List SlotKind) (chain : Chain) : Nat :=
  chain.slots.countP fun s => kinds.contains s.kind && !s.elliptical

/-- The length of the shortest complete text. -/
def minTextLength (chain : Chain) : Nat := chain.count [.fixed, .free, .value]

/-- The length of the longest text. -/
def maxTextLength (chain : Chain) : Nat := chain.count [.fixed, .free, .value, .optional]

/-- The length of the shortest value of a complete text. -/
def minValueLength (chain : Chain) : Nat := chain.count [.fixed, .value]

/-- The length of the longest value. -/
def maxValueLength (chain : Chain) : Nat := chain.count [.fixed, .value, .optional]

/-- What stands between two slots of a description. -/
def arrow : Text := [' ', '-', '>', ' ']

/-- The symbols of the slots, and of the end of the line unless an ellipsis comes last. -/
def symbols (chain : Chain) : Except SlotError (List Text) := do
  let shown ← chain.slots.mapM Slot.symbol
  match chain.slots.getLast? with
  | some ⟨_, _, _, true⟩ => return shown
  | _ => return shown ++ [['E', 'O', 'L']]

/-- The description of a mask: its symbols, joined by arrows. -/
def description (chain : Chain) : Except SlotError Text :=
  chain.symbols.map (List.intercalate arrow)

end TextMask.Chain
