import TextMask.CharClass
import TextMask.Pattern.Glyph

/-!
# Symbols of value groups

A value group holds symbols, each of which asks for one character of a class, and ellipses. The
family of a symbol is its class.
-/

namespace TextMask

/-- A symbol of a value group: the class it asks for and whether it can be skipped. -/
structure ValueSymbol where
  charClass : CharClass
  optional : Bool
  deriving DecidableEq, Repr

namespace ValueSymbol

/-- The character that writes the symbol. -/
def toChar (s : ValueSymbol) : Char :=
  if s.optional then s.charClass.optionalSymbol else s.charClass.mandatorySymbol

/-- Every symbol. -/
def all : List ValueSymbol :=
  CharClass.all.flatMap fun k => [⟨k, false⟩, ⟨k, true⟩]

/-- The symbol that a character writes. -/
def ofChar? (c : Char) : Option ValueSymbol := all.find? (·.toChar == c)

theorem ofChar?_toChar (s : ValueSymbol) : ofChar? s.toChar = some s := by
  obtain ⟨k, b⟩ := s
  cases k <;> cases b <;> decide

theorem toChar_of_ofChar? {c : Char} {s : ValueSymbol} (h : ofChar? c = some s) : s.toChar = c := by
  have hchar : (s.toChar == c) = true :=
    List.find?_some (p := fun s : ValueSymbol => s.toChar == c) h
  exact beq_iff_eq.mp hchar

end ValueSymbol

/-- What a value group holds. -/
inductive Entry where
  | symbol (s : ValueSymbol)
  | ellipsis
  deriving DecidableEq, Repr

namespace Entry

/-- The character that writes the entry. -/
def toChar : Entry → Char
  | .symbol s => s.toChar
  | .ellipsis => ellipsisMark

/-- The entry that a character writes. -/
def ofChar? (c : Char) : Option Entry :=
  if c = ellipsisMark then some .ellipsis else (ValueSymbol.ofChar? c).map .symbol

/-- Whether the entry is a symbol that has to be filled. -/
def isMandatory : Entry → Bool
  | .symbol s => !s.optional
  | .ellipsis => false

/-- Whether the entry is a symbol that can be skipped. -/
def isOptional : Entry → Bool
  | .symbol s => s.optional
  | .ellipsis => false

/-- Whether the entry is an ellipsis. -/
def isEllipsis : Entry → Bool
  | .symbol _ => false
  | .ellipsis => true

end Entry

end TextMask
