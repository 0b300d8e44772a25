import TextMask.Text.Basic

/-!
# Blanks

Two sets of white space that differ in the four information separators: the Unicode property
White_Space, which lacks them, and the wider set of spaces, line ends and separators.
`trim` cuts such characters off both ends of a text.
-/

namespace TextMask

/-- The ranges of the Unicode property White_Space. -/
def whiteSpaces : CodeRanges :=
  [(0x09, 0x0D), (0x20, 0x20), (0x85, 0x85), (0xA0, 0xA0), (0x1680, 0x1680), (0x2000, 0x200A),
   (0x2028, 0x2029), (0x202F, 0x202F), (0x205F, 0x205F), (0x3000, 0x3000)]

/-- Whether the character has the Unicode property White_Space. -/
def isWhiteSpace (c : Char) : Bool := whiteSpaces.has c

/-- Whether the character is white space or one of the four information separators. -/
def isBlank (c : Char) : Bool := isWhiteSpace c || (0x1C ≤ c.toNat && c.toNat ≤ 0x1F)

theorem isWhiteSpace_of_isWhitespace {c : Char} (h : c.isWhitespace = true) :
    isWhiteSpace c = true := by
  simp only [Char.isWhitespace, Bool.or_eq_true, decide_eq_true_eq] at h
  rcases h with ((rfl | rfl) | rfl) | rfl <;> decide

theorem isBlank_of_isWhiteSpace {c : Char} (h : isWhiteSpace c = true) : isBlank c = true := by
  simp [isBlank, h]

/-- The text without the characters of the class at either end. -/
def Text.trim (blank : Char → Bool) (t : Text) : Text :=
  ((t.dropWhile blank).reverse.dropWhile blank).reverse

end TextMask
