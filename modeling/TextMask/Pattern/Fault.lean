import TextMask.Pattern.Glyph

/-!
# Faults of patterns

`PatternFault` lists what can be wrong with a pattern and `FormatError` joins a fault with the
pattern it was found in.
-/

namespace TextMask

/-- What is wrong with a pattern. A position counts characters from the start of the pattern. -/
inductive PatternFault where
  /-- A bracket opens a group inside a group. -/
  | nested (bracket : Bracket) (position : Nat)
  /-- A bracket closes a group that is not open. -/
  | unexpected (bracket : Bracket) (position : Nat)
  /-- A group that a bracket opens is never closed. -/
  | unclosed (bracket : Bracket) (position : Nat)
  /-- A value group holds a character that is no symbol; the place is known only if the pattern
  was checked before it was read. -/
  | unsupported (symbol : Char) (position : Option Nat)
  /-- An ellipsis follows nothing that it could repeat. -/
  | looseEllipsis
  deriving DecidableEq, Repr

namespace PatternFault

/-- The position of the fault. -/
def position : PatternFault → Option Nat
  | .nested _ p | .unexpected _ p | .unclosed _ p => some p
  | .unsupported _ p => p
  | .looseEllipsis => none

/-- The fault as it is reported. -/
def message : PatternFault → String
  | .nested b p => s!"Nested bracket '{b.opening}' at position {p}"
  | .unexpected b p => s!"Unexpected closing bracket '{b.closing}' at position {p}"
  | .unclosed b p => s!"Unclosed bracket '{b.opening}' at position {p}"
  | .unsupported c (some p) => s!"Unsupported symbol '{c}' in value group at position {p}"
  | .unsupported c none => s!"Unsupported symbol '{c}' in value group"
  | .looseEllipsis => "Ellipsis must follow a value symbol or open a value group"

end PatternFault

/-- A pattern that is no format, and the fault that was found first. -/
structure FormatError where
  pattern : Text
  fault : PatternFault
  deriving DecidableEq, Repr

/-- The error as it is reported. -/
def FormatError.message (e : FormatError) : String := e.fault.message

/-- The position of the error in its pattern. -/
def FormatError.position (e : FormatError) : Option Nat := e.fault.position

end TextMask
