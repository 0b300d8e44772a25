/-!
# Texts and tables of characters

Main definitions:

* `Text`: a text is the list of its characters, so every position, caret and length counts
  characters;
* `CodeRanges.has`: membership of a character in a table of code point ranges, the form in
  which the character properties of `TextMask.Text` are stored.
-/

namespace TextMask

/-- A text is the list of its characters. -/
abbrev Text := List Char

/-- A table of closed ranges of code points, in increasing order. -/
abbrev CodeRanges := List (Nat × Nat)

namespace CodeRanges

/-- Whether one of the ranges holds the character. -/
def has (ranges : CodeRanges) (c : Char) : Bool :=
  ranges.any fun range => range.1 ≤ c.toNat && c.toNat ≤ range.2

theorem has_iff {ranges : CodeRanges} {c : Char} :
    ranges.has c = true ↔ ∃ range ∈ ranges, range.1 ≤ c.toNat ∧ c.toNat ≤ range.2 := by
  simp [has]

end CodeRanges

end TextMask
