import TextMask.Proofs.Failure
import TextMask.Proofs.Pattern.Cuts

/-!
# Patterns that have an outline

A pattern with an outline has a normal form, which has an outline of its own, and it has no second
outline.

* `Item.normal`, `Outline.normal`: the outline of the normal form;
* `Outline.read_text`: the parts that a pattern with an outline is read as;
* `Outline.normalForm_text`: a pattern with an outline has the normal form of the outline;
* `Outline.text_injective`: a pattern has at most one outline.
-/

namespace TextMask

/-! ### Normal form of outlines -/

/-- The items that stand for an item in normal form. A value group becomes a group for each of its
runs, in normal order. -/
def Item.normal : Item → List Item
  | .value g => (Entry.runs g.entries).map fun run => .value (.ofEntries (Entry.inOrder run))
  | item => [item]

/-- The outline in normal form. -/
def Outline.normal (o : Outline) : Outline := ⟨o.items.flatMap Item.normal, o.dangling⟩

/-! ### Parts of outlines -/

namespace Item

/-- The part of a pattern that the item is, where it stands in the pattern. -/
def part (position : Nat) : Item → Part
  | .free l => .free l.glyph
  | .fixed ls => .fixed (ls.map Literal.glyph)
  | .value g => .value (position + 1) (g.entries.map Entry.glyph)

/-- The parts of a pattern that the items are, from a position on. -/
def parts (position : Nat) : List Item → List Part
  | [] => []
  | i :: items => i.part position :: parts (position + i.text.length) items

theorem part_segment (i : Item) (position : Nat) :
    i.segment.part position = i.part position := by
  cases i with
  | free l => rfl
  | fixed ls => rfl
  | value g =>
    rw [segment, Segment.part, List.map_map]
    rfl

theorem parts_segment (items : List Item) (position : Nat) :
    Segment.parts position (items.map segment) = parts position items := by
  induction items generalizing position with
  | nil => rfl
  | cons i items ih => rw [List.map_cons, Segment.parts, ih, part_segment, text_segment, parts]

theorem readFrom_flatMap_glyphs (items : List Item) (position : Nat) (rest : List Glyph) :
    Part.readFrom position none (items.flatMap glyphs ++ rest) =
      (parts position items ++ ·) <$>
        Part.readFrom (position + (items.flatMap text).length) none rest := by
  have hread := Segment.readFrom_flatMap_glyphs (items.map segment) position rest
  simp only [List.flatMap_map, glyphs_segment, text_segment] at hread
  rw [hread, parts_segment]

end Item

/-- **Reading a pattern.** A pattern with an outline is read as the parts of the outline. -/
theorem Outline.read_text (o : Outline) :
    Part.read o.text =
      .ok (Item.parts 0 o.items ++ if o.dangling then [.free .dangling] else []) := by
  rw [Part.read, Glyph.read_outline, glyphs, Item.readFrom_flatMap_glyphs]
  cases o.dangling <;> rfl

/-! ### Normal forms of patterns with an outline -/

theorem Entry.read_map_glyph (es : List Entry) (position : Nat) :
    read position (es.map glyph) = .ok es := by
  induction es generalizing position with
  | nil => rfl
  | cons e es ih =>
    show read position (.plain e.toChar :: es.map glyph) = .ok (e :: es)
    rw [read, ofChar?_toChar]
    show (e :: ·) <$> read (position + 1) (es.map glyph) = _
    rw [ih]
    rfl

namespace Item

theorem text_value_ofEntries (es : List Entry) :
    (value (.ofEntries es)).text = Entry.groupText es := by
  rw [text, ValueGroup.entries_ofEntries]

theorem normalize_part (i : Item) (position : Nat) :
    (i.part position).normalize = .ok (i.normal.flatMap text) := by
  cases i with
  | free l =>
    show Except.ok l.glyph.text = .ok (l.text ++ [])
    rw [l.text_glyph, List.append_nil]
  | fixed ls =>
    show Except.ok (_ :: (ls.map Literal.glyph).flatMap Glyph.text ++ _) =
      .ok ((fixed ls).text ++ [])
    rw [List.append_nil, text, List.flatMap_map]
    simp only [Literal.text_glyph]
  | value g =>
    rw [part, Part.normalize, Entry.read_map_glyph, normal, List.flatMap_map]
    simp only [text_value_ofEntries]
    rfl

theorem mapM_normalize_parts (items : List Item) (position : Nat) :
    (parts position items).mapM Part.normalize =
      .ok (items.map fun i => i.normal.flatMap text) := by
  induction items generalizing position with
  | nil => rfl
  | cons i items ih =>
    rw [parts, List.mapM_cons, normalize_part, ih]
    rfl

end Item

/-- **Normal form of an outline.** A pattern with an outline has a normal form, whose outline is
that in normal form. -/
theorem Outline.normalForm_text (o : Outline) : normalForm o.text = .ok o.normal.text := by
  have hparts := Item.mapM_normalize_parts o.items 0
  have hend : (if o.dangling then [Part.free .dangling] else []).mapM Part.normalize =
      .ok (if o.dangling then [[escapeMark]] else []) := by
    cases o.dangling <;> rfl
  have htext : o.normal.text =
      (o.items.map (fun i => i.normal.flatMap Item.text) ++
        if o.dangling then [[escapeMark]] else []).flatten := by
    rw [text, normal, List.flatMap_assoc, List.flatten_append, ← List.flatMap_def]
    cases o.dangling <;> rfl
  rw [normalForm, read_text, htext]
  show (Item.parts 0 o.items ++ _).mapM Part.normalize >>= _ = _
  rw [List.mapM_append, hparts, hend]
  rfl

/-! ### One outline at most -/

namespace Item

theorem segment_injective : Function.Injective segment := by
  have hentries : Function.Injective (List.map Entry.literal) :=
    List.map_injective_iff.mpr fun _ _ h => Entry.glyph_injective (congrArg Literal.glyph h)
  intro i i' h
  cases i with
  | free l =>
    cases i' with
    | free l' => rw [Segment.literal.inj h]
    | fixed ls' => cases h
    | value g' => cases h
  | fixed ls =>
    cases i' with
    | free l' => cases h
    | fixed ls' => rw [(Segment.group.inj h).2]
    | value g' => cases h
  | value g =>
    cases i' with
    | free l' => cases h
    | fixed ls' => cases h
    | value g' => rw [ValueGroup.entries_injective (hentries (Segment.group.inj h).2)]

theorem part_injective (position : Nat) : Function.Injective (part position) := by
  intro i i' h
  rw [← part_segment, ← part_segment] at h
  exact segment_injective (Segment.part_injective position h)

/-- No item is an escape mark that escapes nothing. -/
theorem part_ne_dangling (i : Item) (position : Nat) : i.part position ≠ .free .dangling := by
  rw [← part_segment]
  exact i.segment.part_ne_dangling position

theorem parts_injective {items items' : List Item} {d d' : Bool} {position : Nat}
    (h : parts position items ++ (if d then [.free .dangling] else []) =
      parts position items' ++ if d' then [.free .dangling] else []) :
    items = items' ∧ d = d' := by
  induction items generalizing items' position with
  | nil =>
    cases items' with
    | nil =>
      refine ⟨rfl, ?_⟩
      cases d with
      | false =>
        cases d' with
        | false => rfl
        | true => cases h
      | true =>
        cases d' with
        | false => cases h
        | true => rfl
    | cons i' items' =>
      cases d with
      | false => cases h
      | true => exact absurd (List.cons.inj h).1.symm (i'.part_ne_dangling position)
  | cons i items ih =>
    cases items' with
    | nil =>
      cases d' with
      | false => cases h
      | true => exact absurd (List.cons.inj h).1 (i.part_ne_dangling position)
    | cons i' items' =>
      obtain ⟨hi, hrest⟩ := List.cons.inj h
      obtain rfl := part_injective position hi
      obtain ⟨rfl, rfl⟩ := ih hrest
      exact ⟨rfl, rfl⟩

end Item

/-- A pattern has one outline at most. -/
theorem Outline.text_injective : Function.Injective text := by
  intro o o' h
  have hparts := Except.ok.inj (o.read_text.symm.trans ((congrArg Part.read h).trans o'.read_text))
  obtain ⟨hitems, hdangling⟩ := Item.parts_injective hparts
  cases o
  cases o'
  cases hitems
  cases hdangling
  rfl

end TextMask
