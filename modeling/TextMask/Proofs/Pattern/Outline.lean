import Mathlib.Data.List.Chain
import TextMask.Proofs.Pattern.Segments

/-!
# Outlines of patterns

An outline is the structure of a pattern: its free characters, its fixed groups and its value
groups, which are cut into runs of one family. Every outline is the structure of one text.

* `FamilyRun`, `ValueGroup`: the runs of a value group, as long as they can be;
* `Outline`: the items of a pattern, and whether an escape mark is left over at its end;
* `Item.segment`: the segment that an item is;
* `Glyph.read_outline`: the glyphs of an outline are those of its text.
-/

namespace TextMask

/-! ### Structure -/

/-- A run of a value group: a symbol, which may be optional, and the entries behind it, with no
symbol of another family among them. -/
structure FamilyRun where
  family : CharClass
  optional : Bool
  more : List Entry
  uniform : ∀ s, .symbol s ∈ more → s.charClass = family

/-- A value group: the number of ellipses that it begins with, which are a run of their own, and
its further runs. A run ends only where a symbol of another family stands. -/
structure ValueGroup where
  leading : Nat
  runs : List FamilyRun
  maximal : runs.IsChain fun a b => a.family ≠ b.family

/-- A part of a pattern. -/
inductive Item where
  | free (literal : Literal)
  | fixed (literals : List Literal)
  | value (group : ValueGroup)

/-- The structure of a pattern: its parts, and whether it ends in an escape mark that escapes
nothing. -/
structure Outline where
  items : List Item
  dangling : Bool

/-! ### Text -/

/-- The entries of a run. -/
def FamilyRun.entries (r : FamilyRun) : List Entry := .symbol ⟨r.family, r.optional⟩ :: r.more

/-- The entries of a value group. -/
def ValueGroup.entries (g : ValueGroup) : List Entry :=
  List.replicate g.leading .ellipsis ++ g.runs.flatMap FamilyRun.entries

/-- The part as it is written in a pattern. -/
def Item.text : Item → Text
  | .free l => l.text
  | .fixed ls => Bracket.curly.opening :: ls.flatMap Literal.text ++ [Bracket.curly.closing]
  | .value g => Entry.groupText g.entries

/-- The pattern that has the structure. -/
def Outline.text (o : Outline) : Text :=
  o.items.flatMap Item.text ++ if o.dangling then [escapeMark] else []

/-! ### Glyphs -/

/-- The glyph that writes an entry. -/
def Entry.glyph (e : Entry) : Glyph := .plain e.toChar

/-- The glyphs of a part. -/
def Item.glyphs : Item → List Glyph
  | .free l => [l.glyph]
  | .fixed ls => Bracket.curly.around (ls.map Literal.glyph)
  | .value g => Bracket.square.around (g.entries.map Entry.glyph)

/-- The glyphs of a pattern with the structure. -/
def Outline.glyphs (o : Outline) : List Glyph :=
  o.items.flatMap Item.glyphs ++ if o.dangling then [.dangling] else []

/-! ### Glyphs of outlines -/

namespace Entry

theorem ofChar?_toChar (e : Entry) : ofChar? e.toChar = some e := by
  cases e with
  | symbol s =>
    obtain ⟨k, b⟩ := s
    cases k <;> cases b <;> decide
  | ellipsis => decide

theorem isReserved_toChar (e : Entry) : isReserved e.toChar = false := by
  cases e with
  | symbol s =>
    obtain ⟨k, b⟩ := s
    cases k <;> cases b <;> decide
  | ellipsis => decide

/-- An entry as a literal, which need not be escaped. -/
def literal (e : Entry) : Literal :=
  ⟨e.toChar, false, fun h => absurd h (Bool.eq_false_iff.mp e.isReserved_toChar)⟩

theorem glyph_inert (e : Entry) : e.glyph.Inert := e.literal.glyph_inert

theorem glyph_injective {e e' : Entry} (h : e.glyph = e'.glyph) : e = e' := by
  have hchar : e.toChar = e'.toChar := by injection h
  have hsome := e.ofChar?_toChar
  rw [hchar, ofChar?_toChar] at hsome
  exact (Option.some.inj hsome).symm

end Entry

namespace Item

/-- The segment that an item is, whose group is not cut into runs. -/
def segment : Item → Segment
  | .free l => .literal l
  | .fixed ls => .group .curly ls
  | .value g => .group .square (g.entries.map Entry.literal)

theorem glyphs_segment (i : Item) : i.segment.glyphs = i.glyphs := by
  cases i with
  | free l => rfl
  | fixed ls => rfl
  | value g =>
    rw [segment, Segment.glyphs, List.map_map]
    rfl

theorem text_segment (i : Item) : i.segment.text = i.text := by
  cases i with
  | free l => rfl
  | fixed ls => rfl
  | value g =>
    rw [segment, Segment.text, List.flatMap_map, text, Entry.groupText, List.map_eq_flatMap]
    rfl

theorem flatMap_text_glyphs (i : Item) : i.glyphs.flatMap Glyph.text = i.text := by
  rw [← glyphs_segment, Segment.flatMap_text_glyphs, text_segment]

theorem glyphs_closed (i : Item) : ∀ g ∈ i.glyphs, g.Closed := by
  rw [← glyphs_segment]
  exact i.segment.glyphs_closed

theorem flatMap_glyphs_closed (items : List Item) : ∀ g ∈ items.flatMap glyphs, g.Closed := by
  intro g hg
  obtain ⟨i, -, hi⟩ := List.mem_flatMap.mp hg
  exact i.glyphs_closed g hi

theorem text_flatMap_glyphs (items : List Item) :
    (items.flatMap glyphs).flatMap Glyph.text = items.flatMap text := by
  rw [List.flatMap_assoc]
  simp only [flatMap_text_glyphs]

end Item

/-- **Reading an outline.** The glyphs of an outline are those of its text. -/
theorem Glyph.read_outline (o : Outline) : Glyph.read o.text = o.glyphs := by
  rw [Outline.text, ← Item.text_flatMap_glyphs,
    Glyph.read_flatMap_append (Item.flatMap_glyphs_closed o.items), Outline.glyphs]
  cases o.dangling <;> rfl

end TextMask
