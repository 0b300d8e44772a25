import TextMask.Text.Basic

/-!
# Texts with a caret

`CaretText` pairs a text with a caret that lies inside it: between two characters, before the
first or behind the last. `CaretText.place` checks a caret, and `CaretText.marked` tells for every
character whether it stands before the caret. The caret is at the end just when the last character
stands before it (`CaretText.lastBeforeCaret_eq`).
-/

namespace TextMask

/-- A text and a caret inside it. -/
structure CaretText where
  chars : Text
  caret : Nat
  caret_le : caret ≤ chars.length
  deriving DecidableEq, Repr

/-- A caret that lies outside its text. -/
structure CaretError where
  caret : Int
  length : Nat
  deriving DecidableEq, Repr

/-- The report of a caret outside its text. -/
def CaretError.message (e : CaretError) : String :=
  s!"Caret position {e.caret} is outside text of length {e.length}"

namespace CaretText

/-- The text with its caret at the given place, which has to lie inside the text. -/
def place (chars : Text) (caret : Int) : Except CaretError CaretText :=
  if h : 0 ≤ caret ∧ caret ≤ chars.length then
    .ok ⟨chars, caret.toNat, by omega⟩
  else
    .error ⟨caret, chars.length⟩

/-- The text with its caret behind the last character. -/
def atEnd (chars : Text) : CaretText := ⟨chars, chars.length, Nat.le_refl _⟩

/-- The text with its caret at the given place, or at the end if none is given. -/
def placeOrEnd (chars : Text) : Option Int → Except CaretError CaretText
  | none => .ok (atEnd chars)
  | some caret => place chars caret

/-- The characters, each with whether it stands before the caret. -/
def marked (t : CaretText) : List (Char × Bool) :=
  (t.chars.take t.caret).map (·, true) ++ (t.chars.drop t.caret).map (·, false)

/-- Whether the last character stands before the caret. So it is said to do if there is none. -/
def lastBeforeCaret (t : CaretText) : Bool := (t.marked.getLast?.map (·.2)).getD true

/-- Whether the caret stands behind the last character. -/
def caretAtEnd (t : CaretText) : Bool := t.caret == t.chars.length

/-- The text with a bar at the caret. -/
def view (t : CaretText) : Text := t.chars.take t.caret ++ '|' :: t.chars.drop t.caret

theorem map_fst_marked (t : CaretText) : t.marked.map (·.1) = t.chars := by
  simp [marked, Function.comp_def]

/-- The last character, if there is one, stands before the caret just when the caret is at the end. -/
theorem lastBeforeCaret_eq (t : CaretText) : t.lastBeforeCaret = t.caretAtEnd := by
  have hle := t.caret_le
  by_cases hend : t.caret = t.chars.length
  · have hdrop : t.chars.drop t.caret = [] := List.drop_eq_nil_of_le (by omega)
    rw [caretAtEnd, lastBeforeCaret, marked, hdrop, List.map_nil, List.append_nil,
      List.getLast?_map, Option.map_map, beq_iff_eq.mpr hend]
    cases (t.chars.take t.caret).getLast? <;> rfl
  · have hdrop : t.chars.drop t.caret ≠ [] := by
      rw [Ne, List.drop_eq_nil_iff]
      omega
    rw [caretAtEnd, lastBeforeCaret, marked, List.getLast?_append, List.getLast?_map,
      List.getLast?_eq_some_getLast hdrop, beq_eq_false_iff_ne.mpr hend]
    rfl

end CaretText

end TextMask
