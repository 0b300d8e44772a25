import TextMask.Proofs.Pattern.Outline

/-!
# Patterns without curly brackets

Curly brackets tell which literals of a pattern belong to the value, and nothing else. When they are
taken away, a pattern with an outline has one still: the literals of its fixed groups have become
free.

* `withoutBraces`: a pattern without its curly brackets, escaped ones apart;
* `Item.release`, `Outline.release`: the outline whose fixed groups have become free;
* `Item.filter_glyphs`: item by item, it is what the other glyphs are read as;
* `Outline.text_release`: hence it is the outline of the pattern without curly brackets.
-/

namespace TextMask

/-! ### Curly brackets -/

/-- Whether the glyph is a curly bracket. An escaped one is none. -/
def Glyph.isBrace (g : Glyph) : Bool :=
  g == .plain Bracket.curly.opening || g == .plain Bracket.curly.closing

/-- A pattern without its curly brackets. -/
def withoutBraces (p : Text) : Text := ((Glyph.read p).filter (!·.isBrace)).flatMap Glyph.text

theorem Glyph.isBrace_of_inert {g : Glyph} (h : g.Inert) : g.isBrace = false := by
  rw [isBrace, Bool.or_eq_false_iff, beq_eq_false_iff_ne, beq_eq_false_iff_ne]
  constructor
  · rintro rfl
    exact absurd h.1 (by decide)
  · rintro rfl
    exact absurd h.2 (by decide)

/-- Glyphs that are no brackets are kept. -/
theorem Glyph.filter_of_inert {gs : List Glyph} (h : ∀ g ∈ gs, g.Inert) :
    gs.filter (!·.isBrace) = gs := by
  refine List.filter_eq_self.mpr fun g hg => ?_
  rw [isBrace_of_inert (h g hg)]
  rfl

/-! ### Outlines without curly brackets -/

/-- The item without curly brackets: the literals of a fixed group become free. -/
def Item.release : Item → List Item
  | .free l => [.free l]
  | .fixed ls => ls.map .free
  | .value g => [.value g]

/-- The outline without curly brackets. -/
def Outline.release (o : Outline) : Outline := ⟨o.items.flatMap Item.release, o.dangling⟩

theorem Item.filter_glyphs (i : Item) :
    i.glyphs.filter (!·.isBrace) = i.release.flatMap glyphs := by
  cases i with
  | free l =>
    have hinert : ∀ g ∈ [l.glyph], g.Inert := List.forall_mem_singleton.mpr l.glyph_inert
    exact Glyph.filter_of_inert hinert
  | fixed ls =>
    have hinert : ∀ g ∈ ls.map Literal.glyph, g.Inert :=
      List.forall_mem_map.mpr fun l _ => l.glyph_inert
    have hopening : Glyph.isBrace (.plain Bracket.curly.opening) = true := rfl
    have hclosing : Glyph.isBrace (.plain Bracket.curly.closing) = true := rfl
    rw [release, List.flatMap_map, glyphs, Bracket.around,
      List.filter_cons_of_neg (by rw [hopening]; decide), List.filter_append,
      Glyph.filter_of_inert hinert, List.filter_cons_of_neg (by rw [hclosing]; decide),
      List.filter_nil, List.append_nil, List.map_eq_flatMap]
    rfl
  | value g =>
    have hinert : ∀ x ∈ g.entries.map Entry.glyph, x.Inert :=
      List.forall_mem_map.mpr fun e _ => e.glyph_inert
    have hopening : Glyph.isBrace (.plain Bracket.square.opening) = false := rfl
    have hclosing : Glyph.isBrace (.plain Bracket.square.closing) = false := rfl
    rw [release, List.flatMap_singleton, glyphs, Bracket.around,
      List.filter_cons_of_pos (by rw [hopening]; rfl), List.filter_append,
      Glyph.filter_of_inert hinert, List.filter_cons_of_pos (by rw [hclosing]; rfl),
      List.filter_nil]

theorem Outline.filter_glyphs (o : Outline) :
    o.glyphs.filter (!·.isBrace) = o.release.glyphs := by
  have hdangling : (if o.dangling then [Glyph.dangling] else []).filter (!·.isBrace) =
      if o.dangling then [Glyph.dangling] else [] := by
    cases o.dangling <;> rfl
  rw [glyphs, List.filter_append, List.filter_flatMap, hdangling, glyphs, release,
    List.flatMap_assoc]
  simp only [Item.filter_glyphs]

/-- **Taking curly brackets away** from a pattern releases the fixed groups of its outline. -/
theorem Outline.text_release (o : Outline) : o.release.text = withoutBraces o.text := by
  rw [withoutBraces, Glyph.read_outline, o.filter_glyphs, ← Glyph.read_outline,
    Glyph.flatMap_text_read]

/-- Escaped brackets stay, in free text and in a fixed group. -/
example : withoutBraces ['\\', '\x7b', '\x7b', 'a', '\\', '\x7d', '\x7d', '[', '0', ']'] =
    ['\\', '\x7b', 'a', '\\', '\x7d', '[', '0', ']'] := by decide

end TextMask
