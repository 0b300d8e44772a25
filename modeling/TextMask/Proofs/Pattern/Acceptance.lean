import TextMask.Proofs.Pattern.Reading

/-!
# Accepted patterns

A pattern that has a normal form is made of the parts that it is read as, and each of them is an
item. So the patterns with a normal form are those that have an outline.

* `Part.glyphs_of_readFrom`: the parts of a pattern spell it, and no brackets are inside of them;
* `Part.exists_item`: a part that can be normalized is an item;
* `exists_outline`: a pattern with a normal form has an outline.
-/

namespace TextMask

/-! ### Brackets -/

/-- A character is a bracket of the kind that it is taken for. -/
theorem Bracket.eq_of_choice {f : Bracket → Char} {c : Char} {b : Bracket}
    (h : (if c = f .square then some Bracket.square
      else if c = f .curly then some .curly else none) = some b) : c = f b := by
  split at h
  next hc =>
    obtain rfl := Option.some.inj h
    exact hc
  · split at h
    next hc =>
      obtain rfl := Option.some.inj h
      exact hc
    · cases h

namespace Glyph

theorem eq_opening {g : Glyph} {b : Bracket} (h : g.opens? = some b) : g = .plain b.opening := by
  cases g with
  | plain c => exact congrArg plain (Bracket.eq_of_choice h)
  | escaped c => cases h
  | dangling => cases h

theorem eq_closing {g : Glyph} {b : Bracket} (h : g.closes? = some b) : g = .plain b.closing := by
  cases g with
  | plain c => exact congrArg plain (Bracket.eq_of_choice h)
  | escaped c => cases h
  | dangling => cases h

end Glyph

/-! ### Parts spell the pattern -/

namespace Part

/-- The glyphs of the part without the brackets around them. -/
def content : Part → List Glyph
  | .free g => [g]
  | .fixed body => body
  | .value _ body => body

/-- The glyphs that the part is read from. -/
def glyphs : Part → List Glyph
  | .free g => [g]
  | .fixed body => Bracket.curly.around body
  | .value _ body => Bracket.square.around body

/-- A part with no bracket inside. -/
def Flat (part : Part) : Prop := ∀ g ∈ part.content, g.Inert

end Part

namespace OpenGroup

/-- The glyphs that an open group has been read from so far. -/
def glyphs (group : OpenGroup) : List Glyph := .plain group.bracket.opening :: group.body.reverse

/-- An open group with no bracket inside. -/
def Flat (group : OpenGroup) : Prop := ∀ g ∈ group.body, g.Inert

theorem glyphs_close (group : OpenGroup) :
    group.close.glyphs = group.glyphs ++ [.plain group.bracket.closing] := by
  obtain ⟨b, _, _⟩ := group
  cases b <;> rfl

theorem glyphs_push (group : OpenGroup) (g : Glyph) :
    (group.push g).glyphs = group.glyphs ++ [g] := by
  show Glyph.plain group.bracket.opening :: (g :: group.body).reverse = _
  rw [List.reverse_cons]
  rfl

theorem Flat.close {group : OpenGroup} (h : group.Flat) : group.close.Flat := by
  have hcontent : group.close.content = group.body.reverse := by
    obtain ⟨b, _, _⟩ := group
    cases b <;> rfl
  intro g hg
  rw [hcontent] at hg
  exact h g (List.mem_reverse.mp hg)

theorem Flat.push {group : OpenGroup} (h : group.Flat) {g : Glyph} (hg : g.Inert) :
    (group.push g).Flat := List.forall_mem_cons.mpr ⟨hg, h⟩

end OpenGroup

namespace Part

/-- **Parts spell the pattern.** The parts are read from the open group, if there is one, and the
glyphs that follow, and no bracket is inside of them. -/
theorem glyphs_of_readFrom {position : Nat} {group : Option OpenGroup} {gs : List Glyph}
    {parts : List Part} (h : readFrom position group gs = .ok parts)
    (hgroup : ∀ g, group = some g → g.Flat) :
    parts.flatMap glyphs = (group.elim [] OpenGroup.glyphs) ++ gs ∧ ∀ part ∈ parts, part.Flat := by
  fun_induction readFrom position group gs generalizing parts
  case case1 =>
    obtain rfl := Except.ok.inj h
    exact ⟨rfl, fun _ hpart => nomatch hpart⟩
  case case4 position g rest after b hb ih =>
    obtain rfl := Glyph.eq_opening hb
    refine ih h fun group hgroup => ?_
    obtain rfl := Option.some.inj hgroup
    exact fun _ hg => nomatch hg
  case case6 position g rest after group _ hb ih =>
    obtain rfl := Glyph.eq_closing hb
    obtain ⟨parts', hparts, rfl⟩ := Except.map_eq_ok_iff.mp h
    obtain ⟨hspell, hflat⟩ := ih hparts fun _ hnone => nomatch hnone
    refine ⟨?_, List.forall_mem_cons.mpr ⟨(hgroup group rfl).close, hflat⟩⟩
    rw [List.flatMap_cons, hspell, OpenGroup.glyphs_close, List.append_assoc]
    rfl
  case case8 position g rest after hc ho ih =>
    obtain ⟨parts', hparts, rfl⟩ := Except.map_eq_ok_iff.mp h
    obtain ⟨hspell, hflat⟩ := ih hparts fun _ hnone => nomatch hnone
    refine ⟨?_, List.forall_mem_cons.mpr ⟨fun g' hg => ?_, hflat⟩⟩
    · rw [List.flatMap_cons, hspell]
      rfl
    · obtain rfl := List.mem_singleton.mp hg
      exact ⟨ho, hc⟩
  case case9 position g rest after group hc ho ih =>
    have hpush (group' : OpenGroup) (h : some (group.push g) = some group') : group'.Flat := by
      obtain rfl := Option.some.inj h
      exact (hgroup group rfl).push ⟨ho, hc⟩
    obtain ⟨hspell, hflat⟩ := ih h hpush
    refine ⟨?_, hflat⟩
    rw [hspell]
    show (group.push g).glyphs ++ rest = group.glyphs ++ g :: rest
    rw [OpenGroup.glyphs_push, List.append_assoc]
    rfl
  -- the other steps fail
  all_goals cases h

end Part

/-! ### Complete glyphs -/

/-- A glyph of a pattern is complete, unless it is the escape mark that is left over at the end. -/
theorem Glyph.closed_of_read {p : Text} {g : Glyph} {before after : List Glyph}
    (h : read p = before ++ g :: after) : g = .dangling ∧ after = [] ∨ g.Closed := by
  cases g with
  | plain c =>
    have hmem : .plain c ∈ read p := by
      rw [h]
      exact List.mem_append_right _ List.mem_cons_self
    exact Or.inr (ne_escapeMark_of_mem_read hmem)
  | escaped c => exact Or.inr trivial
  | dangling => exact Or.inl ⟨rfl, eq_nil_of_read_eq_append h⟩

/-- The glyphs inside of a group are complete: the closing bracket is behind them. -/
theorem Bracket.closed_of_read {b : Bracket} {p : Text} {body before after : List Glyph}
    (h : Glyph.read p = before ++ (b.around body ++ after)) : ∀ g ∈ body, g.Closed := by
  intro g hg
  obtain ⟨front, back, rfl⟩ := List.append_of_mem hg
  have hplace : Glyph.read p =
      (before ++ .plain b.opening :: front) ++ g :: (back ++ .plain b.closing :: after) := by
    rw [h, around]
    simp only [List.append_assoc, List.cons_append, List.nil_append]
  rcases Glyph.closed_of_read hplace with ⟨-, hnil⟩ | hclosed
  · exact absurd hnil (List.append_ne_nil_of_right_ne_nil _ (List.cons_ne_nil _ _))
  · exact hclosed

/-! ### Parts are items -/

theorem Entry.toChar_of_ofChar? {c : Char} {e : Entry} (h : ofChar? c = some e) :
    e.toChar = c := by
  rw [ofChar?] at h
  split at h
  next hc =>
    obtain rfl := Option.some.inj h
    exact hc.symm
  · obtain ⟨s, hs, rfl⟩ := Option.map_eq_some_iff.mp h
    exact ValueSymbol.toChar_of_ofChar? hs

/-- The body of a value group spells its entries. -/
theorem Entry.map_glyph_of_read {position : Nat} {body : List Glyph} {es : List Entry}
    (h : read position body = .ok es) : es.map glyph = body := by
  fun_induction read position body generalizing es with
  | case1 =>
    obtain rfl := Except.ok.inj h
    rfl
  | case2 position c rest e hc ih =>
    obtain ⟨es', hes, rfl⟩ := Except.map_eq_ok_iff.mp h
    rw [List.map_cons, ih hes, glyph, toChar_of_ofChar? hc]
  | case3 => cases h
  | case4 => cases h

theorem Literal.exists_of_glyphs {gs : List Glyph} (hclosed : ∀ g ∈ gs, g.Closed)
    (hinert : ∀ g ∈ gs, g.Inert) : ∃ ls : List Literal, ls.map glyph = gs := by
  induction gs with
  | nil => exact ⟨[], rfl⟩
  | cons g gs ih =>
    obtain ⟨hg, hgs⟩ := List.forall_mem_cons.mp hclosed
    obtain ⟨hg', hgs'⟩ := List.forall_mem_cons.mp hinert
    obtain ⟨l, rfl⟩ := exists_of_glyph hg hg'
    obtain ⟨ls, rfl⟩ := ih hgs hgs'
    exact ⟨l :: ls, rfl⟩

namespace Part

/-- A part without brackets inside that can be normalized is an item, if its glyphs are complete. -/
theorem exists_item {part : Part} {text : Text} (hflat : part.Flat)
    (hclosed : ∀ g ∈ part.content, g.Closed) (hnormal : part.normalize = .ok text) :
    ∃ i : Item, i.glyphs = part.glyphs := by
  cases part with
  | free g =>
    have hmem : g ∈ (free g).content := List.mem_singleton_self g
    obtain ⟨l, rfl⟩ := Literal.exists_of_glyph (hclosed g hmem) (hflat g hmem)
    exact ⟨.free l, rfl⟩
  | fixed body =>
    obtain ⟨ls, rfl⟩ := Literal.exists_of_glyphs hclosed hflat
    exact ⟨.fixed ls, rfl⟩
  | value start body =>
    obtain ⟨es, hes, -⟩ := Except.map_eq_ok_iff.mp hnormal
    obtain rfl := Entry.map_glyph_of_read hes
    refine ⟨.value (.ofEntries es), ?_⟩
    rw [Item.glyphs, ValueGroup.entries_ofEntries]
    rfl

/-- The glyphs of a part of a pattern are complete, unless the part is the escape mark that is left
over at the end of the pattern. -/
theorem closed_of_read {p : Text} {before after : List Glyph} {part : Part}
    (h : Glyph.read p = before ++ (part.glyphs ++ after)) :
    part = .free .dangling ∧ after = [] ∨ ∀ g ∈ part.content, g.Closed := by
  cases part with
  | free g =>
    rcases Glyph.closed_of_read h with ⟨rfl, hafter⟩ | hg
    · exact Or.inl ⟨rfl, hafter⟩
    · exact Or.inr fun g' hg' => List.mem_singleton.mp hg' ▸ hg
  | fixed body => exact Or.inr (Bracket.closed_of_read h)
  | value start body => exact Or.inr (Bracket.closed_of_read h)

end Part

/-! ### Patterns with a normal form -/

/-- The parts at the end of a pattern are those of an outline. -/
theorem Outline.exists_of_parts {p : Text} {before : List Glyph} {parts : List Part}
    (hread : Glyph.read p = before ++ parts.flatMap Part.glyphs)
    (hflat : ∀ part ∈ parts, part.Flat)
    (hnormal : ∀ part ∈ parts, ∃ text, part.normalize = .ok text) :
    ∃ o : Outline, o.glyphs = parts.flatMap Part.glyphs := by
  induction parts generalizing before with
  | nil => exact ⟨⟨[], false⟩, rfl⟩
  | cons part parts ih =>
    obtain ⟨hpart, hparts⟩ := List.forall_mem_cons.mp hflat
    obtain ⟨⟨text, htext⟩, htexts⟩ := List.forall_mem_cons.mp hnormal
    rw [List.flatMap_cons] at hread
    rcases Part.closed_of_read hread with ⟨rfl, hafter⟩ | hclosed
    · refine ⟨⟨[], true⟩, ?_⟩
      rw [List.flatMap_cons, hafter]
      rfl
    · obtain ⟨i, hi⟩ := Part.exists_item hpart hclosed htext
      rw [← List.append_assoc] at hread
      obtain ⟨o, ho⟩ := ih hread hparts htexts
      refine ⟨⟨i :: o.items, o.dangling⟩, ?_⟩
      rw [List.flatMap_cons, ← ho, ← hi, glyphs, List.flatMap_cons, List.append_assoc]
      rfl

/-- **Accepted patterns.** A pattern with a normal form has an outline. -/
theorem Outline.exists_of_normalForm {p text : Text} (h : normalForm p = .ok text) :
    ∃ o : Outline, o.text = p := by
  obtain ⟨parts, hparts, hrest⟩ := Except.bind_eq_ok_iff.mp h
  obtain ⟨texts, htexts, -⟩ := Except.bind_eq_ok_iff.mp hrest
  obtain ⟨hspell, hflat⟩ := Part.glyphs_of_readFrom hparts fun _ hnone => nomatch hnone
  have hnormal := Except.exists_of_mapM_eq_ok htexts
  have hread : Glyph.read p = [] ++ parts.flatMap Part.glyphs := hspell.symm
  obtain ⟨o, ho⟩ := exists_of_parts hread hflat hnormal
  refine ⟨o, ?_⟩
  rw [← Glyph.flatMap_text_read o.text, Glyph.read_outline, ho, hspell]
  exact Glyph.flatMap_text_read p

end TextMask
