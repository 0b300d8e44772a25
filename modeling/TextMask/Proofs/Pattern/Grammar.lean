import Mathlib.Data.Set.List
import TextMask.Proofs.Pattern.Acceptance

/-!
# The grammar of formats

What a format may look like is said here by a grammar on characters, which knows nothing of glyphs,
parts and runs. The patterns that have a normal form are just the texts of this grammar.

* `Grammar.Literal`, `Grammar.Item`, `Grammar.Format`: the grammar, from the single character up;
* `isReserved_iff`, `Entry.exists_toChar_iff`: the characters with a role, inside and outside of
  value groups;
* `Grammar.format_iff_exists_outline`: the grammar is spelled by outlines;
* `normalize_accepts_grammar`: a pattern has a normal form if it is in the grammar, and is refused
  otherwise.
-/

namespace TextMask

namespace Grammar

/-- The characters that have to be escaped to stand for themselves. -/
def reserved : List Char := ['[', ']', '\x7b', '\x7d', '\\']

/-- The characters of value groups. -/
def symbols : List Char := ['0', '9', 'A', 'a', '_', '-', '…']

/-- A character that stands for itself: any character behind a backslash, and a character without a
role on its own. -/
inductive Literal : Text → Prop
  | plain {c : Char} : c ∉ reserved → Literal [c]
  | escaped (c : Char) : Literal ['\\', c]

/-- A literal, a value group of symbols, or a fixed group of literals. -/
inductive Item : Text → Prop
  | literal {t : Text} : Literal t → Item t
  | value {body : Text} : (∀ c ∈ body, c ∈ symbols) → Item ('[' :: (body ++ [']']))
  | fixed {literals : List Text} :
      (∀ t ∈ literals, Literal t) → Item ('\x7b' :: (literals.flatten ++ ['\x7d']))

/-- A sequence of items, with or without a backslash at its end that escapes nothing. -/
inductive Format : Text → Prop
  | nil : Format []
  | dangling : Format ['\\']
  | cons {item rest : Text} : Item item → Format rest → Format (item ++ rest)

end Grammar

/-! ### Characters with a role -/

/-- A choice between two characters is made for the one or the other. -/
theorem Bracket.isSome_choice {α : Type} {c a b : Char} {x y : α} :
    (if c = a then some x else if c = b then some y else none).isSome = true ↔
      c = a ∨ c = b := by
  split
  next h => exact ⟨fun _ => Or.inl h, fun _ => rfl⟩
  next h =>
    split
    next h' => exact ⟨fun _ => Or.inr h', fun _ => rfl⟩
    next h' => exact ⟨fun hsome => (nomatch hsome), fun hor => (hor.elim h h').elim⟩

theorem isReserved_iff {c : Char} : isReserved c = true ↔ c ∈ Grammar.reserved := by
  have hopening : (Bracket.ofOpening? c).isSome = true ↔ c = '[' ∨ c = '\x7b' :=
    Bracket.isSome_choice
  have hclosing : (Bracket.ofClosing? c).isSome = true ↔ c = ']' ∨ c = '\x7d' :=
    Bracket.isSome_choice
  have hescape : (c == escapeMark) = true ↔ c = '\\' := beq_iff_eq
  rw [isReserved, Bool.or_eq_true, Bool.or_eq_true, hescape, hopening, hclosing]
  simp only [Grammar.reserved, List.mem_cons, List.not_mem_nil, or_false]
  grind

/-- The entries of value groups are written by the characters of value groups. -/
theorem Entry.exists_toChar_iff {c : Char} : (∃ e : Entry, e.toChar = c) ↔ c ∈ Grammar.symbols := by
  constructor
  · rintro ⟨e, rfl⟩
    cases e with
    | symbol s =>
      obtain ⟨k, b⟩ := s
      cases k <;> cases b <;> decide
    | ellipsis => decide
  · intro hc
    simp only [Grammar.symbols, List.mem_cons, List.not_mem_nil, or_false] at hc
    rcases hc with rfl | rfl | rfl | rfl | rfl | rfl | rfl
    · exact ⟨.symbol ⟨.numeric, false⟩, rfl⟩
    · exact ⟨.symbol ⟨.numeric, true⟩, rfl⟩
    · exact ⟨.symbol ⟨.letter, false⟩, rfl⟩
    · exact ⟨.symbol ⟨.letter, true⟩, rfl⟩
    · exact ⟨.symbol ⟨.alphanumeric, false⟩, rfl⟩
    · exact ⟨.symbol ⟨.alphanumeric, true⟩, rfl⟩
    · exact ⟨.ellipsis, rfl⟩

/-! ### Texts of outlines -/

namespace Grammar

theorem literal_iff {t : Text} : Literal t ↔ ∃ l : TextMask.Literal, l.text = t := by
  constructor
  · intro h
    cases h with
    | @plain c hc =>
      have hfree : ¬ isReserved c = true := fun hres => hc (isReserved_iff.mp hres)
      exact ⟨⟨c, false, fun hres => absurd hres hfree⟩, rfl⟩
    | escaped c => exact ⟨⟨c, true, fun _ => rfl⟩, rfl⟩
  · rintro ⟨⟨c, b, hguarded⟩, rfl⟩
    cases b with
    | true => exact .escaped c
    | false => exact .plain fun hc => Bool.false_ne_true (hguarded (isReserved_iff.mpr hc))

/-- Each text of a list is that of a literal if the list is that of some literals. -/
theorem literals_iff {ts : List Text} :
    (∀ t ∈ ts, Literal t) ↔ ∃ ls : List TextMask.Literal, ls.map TextMask.Literal.text = ts := by
  simp only [literal_iff]
  exact (Set.ext_iff.mp (Set.range_list_map TextMask.Literal.text) ts).symm

/-- Each character of a body is a symbol if the body is that of some entries. -/
theorem symbols_iff {body : Text} :
    (∀ c ∈ body, c ∈ symbols) ↔ ∃ es : List Entry, es.map Entry.toChar = body := by
  simp only [← Entry.exists_toChar_iff]
  exact (Set.ext_iff.mp (Set.range_list_map Entry.toChar) body).symm

theorem item_iff {t : Text} : Item t ↔ ∃ i : TextMask.Item, i.text = t := by
  constructor
  · intro h
    cases h with
    | literal hl =>
      obtain ⟨l, rfl⟩ := literal_iff.mp hl
      exact ⟨.free l, rfl⟩
    | value hbody =>
      obtain ⟨es, rfl⟩ := symbols_iff.mp hbody
      exact ⟨.value (.ofEntries es), TextMask.Item.text_value_ofEntries es⟩
    | fixed hliterals =>
      obtain ⟨ls, rfl⟩ := literals_iff.mp hliterals
      exact ⟨.fixed ls, by rw [← List.flatMap_def]; rfl⟩
  · rintro ⟨i, rfl⟩
    cases i with
    | free l => exact .literal (literal_iff.mpr ⟨l, rfl⟩)
    | fixed ls =>
      have hfixed := Item.fixed (literals_iff.mpr ⟨ls, rfl⟩)
      rw [← List.flatMap_def] at hfixed
      exact hfixed
    | value g => exact .value (symbols_iff.mpr ⟨g.entries, rfl⟩)

/-- **The grammar is spelled by outlines.** -/
theorem format_iff_exists_outline {p : Text} : Format p ↔ ∃ o : Outline, o.text = p := by
  constructor
  · intro h
    induction h with
    | nil => exact ⟨⟨[], false⟩, rfl⟩
    | dangling => exact ⟨⟨[], true⟩, rfl⟩
    | cons hi _ ih =>
      obtain ⟨i, rfl⟩ := item_iff.mp hi
      obtain ⟨o, rfl⟩ := ih
      refine ⟨⟨i :: o.items, o.dangling⟩, ?_⟩
      rw [Outline.text, List.flatMap_cons, List.append_assoc]
      rfl
  · rintro ⟨⟨items, dangling⟩, rfl⟩
    induction items with
    | nil =>
      cases dangling with
      | false => exact .nil
      | true => exact .dangling
    | cons i items ih =>
      rw [Outline.text, List.flatMap_cons, List.append_assoc]
      exact .cons (item_iff.mpr ⟨i, rfl⟩) ih

/-- The grammar says which patterns have a normal form. -/
theorem format_iff_exists_normalForm {p : Text} :
    Format p ↔ ∃ normal, normalForm p = .ok normal := by
  rw [format_iff_exists_outline]
  constructor
  · rintro ⟨o, rfl⟩
    exact ⟨_, o.normalForm_text⟩
  · rintro ⟨normal, h⟩
    exact Outline.exists_of_normalForm h

/-- To see whether a pattern is in the grammar, its normal form is computed. -/
instance (p : Text) : Decidable (Format p) :=
  match h : normalForm p with
  | .ok normal => isTrue (format_iff_exists_normalForm.mpr ⟨normal, h⟩)
  | .error fault => isFalse fun hp => by
    obtain ⟨normal, hnormal⟩ := format_iff_exists_normalForm.mp hp
    rw [h] at hnormal
    cases hnormal

end Grammar

/-! ### Accepted and refused patterns -/

/-- **Normalizing accepts the grammar.** The patterns that have a normal form are those of the
grammar, and every other pattern is refused with an error that tells the pattern. -/
theorem normalize_accepts_grammar (p : Text) :
    ((∃ normal, normalize p = .ok normal) ↔ Grammar.Format p) ∧
      ((∃ e, normalize p = .error e ∧ e.pattern = p) ↔ ¬ Grammar.Format p) := by
  have hok (normal : Text) : normalize p = .ok normal ↔ normalForm p = .ok normal :=
    Except.mapError_eq_ok_iff
  simp only [hok, Grammar.format_iff_exists_normalForm, true_and]
  cases h : normalForm p with
  | ok normal =>
    have hnormal : normalize p = .ok normal := (hok normal).mpr h
    refine ⟨fun ⟨e, he, _⟩ => ?_, fun hnone => absurd ⟨normal, rfl⟩ hnone⟩
    rw [hnormal] at he
    cases he
  | error fault =>
    have herror : normalize p = .error ⟨p, fault⟩ := by rw [normalize, h]; rfl
    exact ⟨fun _ ⟨_, hnormal⟩ => (nomatch hnormal), fun _ => ⟨_, herror, rfl⟩⟩

/-- Escapes, a group of mixed symbols and a backslash that is left over are in the grammar; an
escape in a value group is not. -/
example : Grammar.Format ['\\', '[', '\x7b', '\\', '\x7d', '\x7d', '[', '9', '…', 'A', ']', '\\'] ∧
    ¬ Grammar.Format ['[', '\\', '0', ']'] := by decide

end TextMask
