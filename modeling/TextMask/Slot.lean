import TextMask.CharClass

/-!
# Slots of a mask

A mask is a chain of slots, which reports call states. A slot either has a literal to write or
asks for a character of a class; an elliptical slot may be used any number of times. A slot can be
declared with any combination of these properties; what a part of the library needs and the slot
lacks is a `SlotError`.
-/

namespace TextMask

/-- What a slot does with the characters that reach it. -/
inductive SlotKind where
  /-- Writes its literal and counts it as part of the extracted value. -/
  | fixed
  /-- Writes its literal, which is decoration. -/
  | free
  /-- Takes one character of its class and rejects any other. -/
  | value
  /-- Takes one character of its class and lets any other pass. -/
  | optional
  /-- Ends the chain and rejects everything. -/
  | endOfLine
  deriving DecidableEq, Repr

namespace SlotKind

/-- The name of the kind in reports. -/
def name : SlotKind → String
  | .fixed => "fixed"
  | .free => "free"
  | .value => "value"
  | .optional => "optional_value"
  | .endOfLine => "end_of_line"

/-- Every kind. -/
def all : List SlotKind := [.fixed, .free, .value, .optional, .endOfLine]

/-- The kind with the given name. -/
def ofName? (name : String) : Option SlotKind := all.find? (·.name == name)

/-- The report on a name that no kind has. -/
def unknownName (name : String) : String :=
  String.ofList (Quoted.encode name.toList) ++ " is not a valid StateKind"

end SlotKind

/-- One place of a mask. -/
structure Slot where
  kind : SlotKind
  literal : Option Text := none
  charClass : Option CharClass := none
  elliptical : Bool := false
  deriving DecidableEq, Repr

/-- Something that a slot was asked for and does not have. -/
inductive SlotError where
  /-- The chain ends at a slot that was to be left. -/
  | noSuccessor (kind : SlotKind)
  /-- A slot that has to choose characters has no class. -/
  | noClass (kind : SlotKind)
  deriving DecidableEq, Repr

/-- The error as it is reported. -/
def SlotError.message : SlotError → String
  | .noSuccessor kind => s!"{kind.name} state has no successor"
  | .noClass kind => s!"{kind.name} state has no character class"

namespace Slot

/-- A literal that belongs to the value. -/
def fixed (c : Char) : Slot := { kind := .fixed, literal := some [c] }

/-- A literal that is decoration. -/
def free (c : Char) : Slot := { kind := .free, literal := some [c] }

/-- A place for one character of a class. -/
def value (k : CharClass) : Slot := { kind := .value, charClass := some k }

/-- A place for at most one character of a class. -/
def optional (k : CharClass) : Slot := { kind := .optional, charClass := some k }

/-- A place for any number of characters of a class. -/
def ellipsis (k : CharClass) : Slot :=
  { kind := .value, charClass := some k, elliptical := true }

/-- The end of a chain. -/
def endOfLine : Slot := { kind := .endOfLine }

/-- The class of characters that the slot takes. -/
def valueClass (s : Slot) : Except SlotError CharClass :=
  match s.charClass with
  | some k => .ok k
  | none => .error (.noClass s.kind)

/-- The literal as reports show it: a literal that was never given has a word of its own. -/
def literalText (s : Slot) : Text := s.literal.getD ['N', 'o', 'n', 'e']

/-- The slot in the notation of chains, which follows the notation of formats. -/
def symbol (s : Slot) : Except SlotError Text :=
  match s.kind with
  | .fixed => .ok ('\x7b' :: s.literalText ++ ['\x7d'])
  | .free => .ok s.literalText
  | .endOfLine => .ok ['E', 'O', 'L']
  | .value =>
    if s.elliptical then .ok ['[', '…', ']']
    else s.valueClass.map fun k => ['[', k.mandatorySymbol, ']']
  | .optional =>
    if s.elliptical then .ok ['[', '…', ']']
    else s.valueClass.map fun k => ['[', k.optionalSymbol, ']']

/-- What stands for the slot in a placeholder: the filler of its class, or else its literal. -/
def filler (s : Slot) : Text :=
  match s.charClass with
  | some k => [k.placeholder]
  | none => s.literalText

end Slot

end TextMask
