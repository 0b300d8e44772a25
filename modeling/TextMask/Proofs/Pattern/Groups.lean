import TextMask.Proofs.Pattern.Outline

/-!
# Value groups of a pattern

The value groups of a pattern are what stands between square brackets that are not escaped. They are
told from the rest of the pattern by a scan over its glyphs, which knows nothing of parts and runs.

* `valueGroups`, `withoutValueGroups`: the bodies of the value groups of a pattern, and what is left
  of the pattern without these groups;
* `Glyph.outside_append_of_inert` and its companions: glyphs that are no brackets stay where they
  are, inside of a group or outside;
* `Outline.valueGroups_text`, `Outline.withoutValueGroups_text`: in a pattern with an outline they
  are the value groups of the outline, and its other items.
-/

namespace TextMask

/-! ### Value groups of a pattern -/

namespace Glyph

/-- What the glyphs spell outside of value groups; the first of them may stand inside of one. -/
def outside (inside : Bool) : List Glyph → Text
  | [] => []
  | g :: rest =>
    if inside then outside (g.closes? != some .square) rest
    else if g.opens? = some .square then outside true rest
    else g.text ++ outside false rest

/-- The bodies of value groups; a group may be open already, with the given text in it. -/
def bodies (group : Option Text) : List Glyph → List Text
  | [] => group.toList
  | g :: rest =>
    match group with
    | some body =>
      if g.closes? = some .square then body :: bodies none rest
      else bodies (some (body ++ g.text)) rest
    | none => if g.opens? = some .square then bodies (some []) rest else bodies none rest

end Glyph

/-- A pattern without its value groups. -/
def withoutValueGroups (p : Text) : Text := Glyph.outside false (Glyph.read p)

/-- What stands between the brackets of each value group of a pattern. -/
def valueGroups (p : Text) : List Text := Glyph.bodies none (Glyph.read p)

namespace Glyph

variable {gs : List Glyph}

theorem outside_append_of_inert (h : ∀ g ∈ gs, g.Inert) (rest : List Glyph) :
    outside false (gs ++ rest) = gs.flatMap text ++ outside false rest := by
  induction gs with
  | nil => rfl
  | cons g gs ih =>
    obtain ⟨hg, hgs⟩ := List.forall_mem_cons.mp h
    simp [outside, hg.1, ih hgs]

theorem outside_append_of_inside (h : ∀ g ∈ gs, g.Inert) (rest : List Glyph) :
    outside true (gs ++ rest) = outside true rest := by
  induction gs with
  | nil => rfl
  | cons g gs ih =>
    obtain ⟨hg, hgs⟩ := List.forall_mem_cons.mp h
    show outside (g.closes? != some .square) (gs ++ rest) = _
    rw [hg.2]
    exact ih hgs

theorem bodies_append_of_inert (h : ∀ g ∈ gs, g.Inert) (rest : List Glyph) :
    bodies none (gs ++ rest) = bodies none rest := by
  induction gs with
  | nil => rfl
  | cons g gs ih =>
    obtain ⟨hg, hgs⟩ := List.forall_mem_cons.mp h
    simp [bodies, hg.1, ih hgs]

theorem bodies_append_of_inside (h : ∀ g ∈ gs, g.Inert) (body : Text) (rest : List Glyph) :
    bodies (some body) (gs ++ rest) = bodies (some (body ++ gs.flatMap text)) rest := by
  induction gs generalizing body with
  | nil => simp
  | cons g gs ih =>
    obtain ⟨hg, hgs⟩ := List.forall_mem_cons.mp h
    simp [bodies, hg.2, ih hgs]

end Glyph

/-! ### Value groups of an outline -/

namespace Item

/-- What the item contributes to the pattern without value groups. -/
def outside : Item → Text
  | .value _ => []
  | item => item.text

/-- The entries of the value group that the item is, if it is one. -/
def groups : Item → List (List Entry)
  | .value g => [g.entries]
  | _ => []

theorem literals_inert (ls : List Literal) : ∀ g ∈ ls.map Literal.glyph, g.Inert :=
  List.forall_mem_map.mpr fun l _ => l.glyph_inert

theorem entries_inert (es : List Entry) : ∀ g ∈ es.map Entry.glyph, g.Inert :=
  List.forall_mem_map.mpr fun e _ => e.glyph_inert

theorem outside_glyphs (i : Item) (rest : List Glyph) :
    Glyph.outside false (i.glyphs ++ rest) = i.outside ++ Glyph.outside false rest := by
  cases i with
  | free l =>
    have hinert : ∀ g ∈ (free l).glyphs, g.Inert := literals_inert [l]
    rw [Glyph.outside_append_of_inert hinert, flatMap_text_glyphs]
    rfl
  | fixed ls =>
    have hbody := Glyph.outside_append_of_inert (literals_inert ls)
      (.plain Bracket.curly.closing :: rest)
    have hopening : Glyph.outside false ((fixed ls).glyphs ++ rest) =
        Bracket.curly.opening ::
          Glyph.outside false (ls.map Literal.glyph ++ .plain Bracket.curly.closing :: rest) := by
      simp [glyphs, Bracket.around, Glyph.outside, Glyph.opens?, Bracket.ofOpening?,
        Bracket.opening, Glyph.text]
    have hclosing : Glyph.outside false (.plain Bracket.curly.closing :: rest) =
        Bracket.curly.closing :: Glyph.outside false rest := rfl
    rw [hopening, hbody, hclosing, List.flatMap_map]
    simp only [Literal.text_glyph]
    show _ = (fixed ls).text ++ _
    simp [text]
  | value g =>
    have hbody := Glyph.outside_append_of_inside (entries_inert g.entries)
      (.plain Bracket.square.closing :: rest)
    have hopening : Glyph.outside false ((value g).glyphs ++ rest) =
        Glyph.outside true
          (g.entries.map Entry.glyph ++ .plain Bracket.square.closing :: rest) := by
      simp [glyphs, Bracket.around, Glyph.outside, Glyph.opens?, Bracket.ofOpening?]
    rw [hopening, hbody]
    rfl

theorem bodies_glyphs (i : Item) (rest : List Glyph) :
    Glyph.bodies none (i.glyphs ++ rest) =
      i.groups.map (List.map Entry.toChar) ++ Glyph.bodies none rest := by
  cases i with
  | free l =>
    have hinert : ∀ g ∈ (free l).glyphs, g.Inert := literals_inert [l]
    rw [Glyph.bodies_append_of_inert hinert]
    rfl
  | fixed ls =>
    have hbody := Glyph.bodies_append_of_inert (literals_inert ls)
      (.plain Bracket.curly.closing :: rest)
    have hopening : Glyph.bodies none ((fixed ls).glyphs ++ rest) =
        Glyph.bodies none (ls.map Literal.glyph ++ .plain Bracket.curly.closing :: rest) := by
      simp [glyphs, Bracket.around, Glyph.bodies, Glyph.opens?, Bracket.ofOpening?,
        Bracket.opening]
    rw [hopening, hbody]
    rfl
  | value g =>
    have hbody := Glyph.bodies_append_of_inside (entries_inert g.entries) []
      (.plain Bracket.square.closing :: rest)
    have htext : (g.entries.map Entry.glyph).flatMap Glyph.text = g.entries.map Entry.toChar := by
      rw [List.flatMap_map, List.map_eq_flatMap]
      rfl
    have hopening : Glyph.bodies none ((value g).glyphs ++ rest) =
        Glyph.bodies (some [])
          (g.entries.map Entry.glyph ++ .plain Bracket.square.closing :: rest) := by
      simp [glyphs, Bracket.around, Glyph.bodies, Glyph.opens?, Bracket.ofOpening?]
    rw [hopening, hbody, htext]
    rfl

end Item

namespace Outline

/-- The entries of the value groups of the outline. -/
def groups (o : Outline) : List (List Entry) := o.items.flatMap Item.groups

theorem valueGroups_text (o : Outline) :
    valueGroups o.text = o.groups.map (List.map Entry.toChar) := by
  have hitems (items : List Item) (rest : List Glyph) :
      Glyph.bodies none (items.flatMap Item.glyphs ++ rest) =
        (items.flatMap Item.groups).map (List.map Entry.toChar) ++ Glyph.bodies none rest := by
    induction items with
    | nil => rfl
    | cons i items ih => simp [List.append_assoc, Item.bodies_glyphs, ih]
  rw [valueGroups, Glyph.read_outline, glyphs, hitems]
  cases o.dangling <;> simp [groups, Glyph.bodies, Glyph.opens?]

theorem withoutValueGroups_text (o : Outline) :
    withoutValueGroups o.text =
      o.items.flatMap Item.outside ++ if o.dangling then [escapeMark] else [] := by
  have hitems (items : List Item) (rest : List Glyph) :
      Glyph.outside false (items.flatMap Item.glyphs ++ rest) =
        items.flatMap Item.outside ++ Glyph.outside false rest := by
    induction items with
    | nil => rfl
    | cons i items ih => simp [List.append_assoc, Item.outside_glyphs, ih]
  rw [withoutValueGroups, Glyph.read_outline, glyphs, hitems]
  cases o.dangling <;> rfl

end Outline

/-- An escaped bracket opens no group, and neither does a curly one. -/
example : valueGroups ['\\', '[', '[', '9', '0', ']', '\x7b', 'a', '\x7d', '[', ']'] =
      [['9', '0'], []] ∧
    withoutValueGroups ['\\', '[', '[', '9', '0', ']', '\x7b', 'a', '\x7d', '[', ']'] =
      ['\\', '[', '\x7b', 'a', '\x7d'] := by decide

end TextMask
