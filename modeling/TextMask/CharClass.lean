import TextMask.Text.Digit
import TextMask.Text.Letter
import TextMask.Text.Numeral
import TextMask.Text.Quoted

/-!
# Character classes

The classes of characters that a value slot of a mask can ask for, the characters they accept, and
the symbols that stand for them in formats and placeholders.
-/

namespace TextMask

/-- The characters that a value slot can ask for. -/
inductive CharClass where
  | numeric
  | letter
  | alphanumeric
  deriving DecidableEq, Repr

namespace CharClass

/-- Whether a character belongs to the class. An alphanumeric character is a letter or a numeral
of any kind. -/
def accepts : CharClass → Char → Bool
  | .numeric, c => isDecimalDigit c
  | .letter, c => isLetter c
  | .alphanumeric, c => isLetter c || isDecimalDigit c || isOtherNumeral c

theorem accepts_alphanumeric (k : CharClass) {c : Char} (h : k.accepts c = true) :
    alphanumeric.accepts c = true := by
  cases k <;> simp_all [accepts]

/-- The character that stands for the class in a placeholder. -/
def placeholder : CharClass → Char
  | .numeric => '0'
  | .letter => 'a'
  | .alphanumeric => '-'

/-- The format symbol of a mandatory slot of the class. -/
def mandatorySymbol : CharClass → Char
  | .numeric => '0'
  | .letter => 'A'
  | .alphanumeric => '_'

/-- The format symbol of an optional slot of the class. -/
def optionalSymbol : CharClass → Char
  | .numeric => '9'
  | .letter => 'a'
  | .alphanumeric => '-'

/-- The name of the class in reports. -/
def name : CharClass → String
  | .numeric => "numeric"
  | .letter => "letter"
  | .alphanumeric => "alphanumeric"

/-- Every class. -/
def all : List CharClass := [.numeric, .letter, .alphanumeric]

/-- The class with the given name. -/
def ofName? (name : String) : Option CharClass := all.find? (·.name == name)

/-- The report on a name that no class has. -/
def unknownName (name : String) : String :=
  String.ofList (Quoted.encode name.toList) ++ " is not a valid CharacterClass"

end CharClass

end TextMask
