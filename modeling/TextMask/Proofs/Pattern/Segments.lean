import Mathlib.Data.List.Basic
import TextMask.Pattern.NormalForm

/-!
# Segments of patterns

As long as only the brackets of a pattern count, and not what its groups are for, a pattern is a
sequence of segments, each a literal or a group of literals. Segments are read as they are written,
whatever stands behind them.

* `Literal`: a character that is meant as it is, escaped where that is necessary;
* `Segment`: a literal, or a group of literals;
* `Glyph.read_flatMap_append`: complete glyphs are read one by one;
* `Segment.readFrom_flatMap_glyphs`: segments are read as the parts of a pattern that they are;
* `Segment.part_injective`: a part is one segment only.
-/

namespace TextMask

/-! ### Literals -/

/-- Whether a character has a role of its own in patterns. -/
def isReserved (c : Char) : Bool :=
  c == escapeMark || (Bracket.ofOpening? c).isSome || (Bracket.ofClosing? c).isSome

/-- A character that a pattern means as it is, and whether an escape mark stands before it. A
reserved character needs one. -/
structure Literal where
  char : Char
  escaped : Bool
  guarded : isReserved char = true → escaped = true

/-- The literal as it is written in a pattern. -/
def Literal.text (l : Literal) : Text := if l.escaped then [escapeMark, l.char] else [l.char]

/-- The literal as a glyph. -/
def Literal.glyph (l : Literal) : Glyph := if l.escaped then .escaped l.char else .plain l.char

/-! ### Glyphs -/

namespace Glyph

/-- A glyph that is complete whatever follows it. -/
def Closed : Glyph → Prop
  | .plain c => c ≠ escapeMark
  | .escaped _ => True
  | .dangling => False

/-- A glyph that is no bracket. -/
def Inert (g : Glyph) : Prop := g.opens? = none ∧ g.closes? = none

theorem read_append {g : Glyph} (h : g.Closed) (p : Text) : read (g.text ++ p) = g :: read p := by
  cases g with
  | plain c =>
    show read (c :: p) = .plain c :: read p
    rw [read.eq_def]
    exact if_neg h
  | escaped c =>
    show read (escapeMark :: c :: p) = .escaped c :: read p
    rw [read, if_pos rfl]
  | dangling => exact absurd h id

/-- Complete glyphs are read one by one. -/
theorem read_flatMap_append {gs : List Glyph} (h : ∀ g ∈ gs, g.Closed) (p : Text) :
    read (gs.flatMap text ++ p) = gs ++ read p := by
  induction gs with
  | nil => rfl
  | cons g gs ih =>
    obtain ⟨hg, hgs⟩ := List.forall_mem_cons.mp h
    rw [List.flatMap_cons, List.append_assoc, read_append hg, ih hgs, List.cons_append]

/-- A plain glyph of a pattern is no escape mark. -/
theorem ne_escapeMark_of_mem_read {p : Text} {c : Char} (h : .plain c ∈ read p) :
    c ≠ escapeMark := by
  fun_induction read p with
  | case1 => cases h
  | case2 => cases List.mem_singleton.mp h
  | case3 d rest ih =>
    rcases List.mem_cons.mp h with h | h
    · cases h
    · exact ih h
  | case4 d rest hd ih =>
    rcases List.mem_cons.mp h with h | h
    · cases h; exact hd
    · exact ih h

/-- Nothing follows an escape mark that escapes nothing. -/
theorem eq_nil_of_read_eq_append {p : Text} {gs hs : List Glyph}
    (h : read p = gs ++ .dangling :: hs) : hs = [] := by
  fun_induction read p generalizing gs with
  | case1 => exact absurd h.symm (List.append_ne_nil_of_right_ne_nil _ (List.cons_ne_nil _ _))
  | case2 =>
    cases gs with
    | nil => exact (List.cons.inj h).2.symm
    | cons g gs =>
      have ht := (List.cons.inj h).2
      exact absurd ht.symm (List.append_ne_nil_of_right_ne_nil _ (List.cons_ne_nil _ _))
  | case3 d rest ih =>
    cases gs with
    | nil => cases (List.cons.inj h).1
    | cons g gs => exact ih (List.cons.inj h).2
  | case4 d rest hd ih =>
    cases gs with
    | nil => cases (List.cons.inj h).1
    | cons g gs => exact ih (List.cons.inj h).2

end Glyph

namespace Literal

theorem text_glyph (l : Literal) : l.glyph.text = l.text := by
  obtain ⟨c, b, h⟩ := l
  cases b <;> rfl

theorem glyph_closed (l : Literal) : l.glyph.Closed := by
  obtain ⟨c, b, h⟩ := l
  cases b with
  | true => trivial
  | false =>
    show c ≠ escapeMark
    rintro rfl
    exact Bool.false_ne_true (h rfl)

theorem glyph_inert (l : Literal) : l.glyph.Inert := by
  obtain ⟨c, b, h⟩ := l
  cases b with
  | true => exact ⟨rfl, rfl⟩
  | false =>
    have hc : isReserved c = false := Bool.eq_false_iff.mpr fun hc => Bool.false_ne_true (h hc)
    simp only [isReserved, Bool.or_eq_false_iff, Option.isSome_eq_false_iff,
      Option.isNone_iff_eq_none] at hc
    exact ⟨hc.1.2, hc.2⟩

/-- A glyph that is complete and no bracket is a literal. -/
theorem exists_of_glyph {g : Glyph} (hc : g.Closed) (hi : g.Inert) :
    ∃ l : Literal, l.glyph = g := by
  cases g with
  | plain c =>
    have hres : isReserved c = false := by
      have hne : (c == escapeMark) = false := beq_eq_false_iff_ne.mpr hc
      have ho : Bracket.ofOpening? c = none := hi.1
      have hcl : Bracket.ofClosing? c = none := hi.2
      rw [isReserved, hne, ho, hcl]
      rfl
    exact ⟨⟨c, false, fun h => absurd h (by rw [hres]; exact Bool.false_ne_true)⟩, rfl⟩
  | escaped c => exact ⟨⟨c, true, fun _ => rfl⟩, rfl⟩
  | dangling => exact absurd hc id

theorem glyph_injective {l l' : Literal} (h : l.glyph = l'.glyph) : l = l' := by
  obtain ⟨c, b, _⟩ := l
  obtain ⟨c', b', _⟩ := l'
  cases b <;> cases b' <;> cases h <;> rfl

end Literal

namespace Bracket

/-- The glyphs of a group with the given brackets around its body. -/
def around (b : Bracket) (body : List Glyph) : List Glyph :=
  .plain b.opening :: (body ++ [.plain b.closing])

theorem around_closed (b : Bracket) {body : List Glyph} (h : ∀ g ∈ body, g.Closed) :
    ∀ g ∈ b.around body, g.Closed := by
  have ho : b.opening ≠ escapeMark := by cases b <;> decide
  have hc : b.closing ≠ escapeMark := by cases b <;> decide
  intro g hg
  rcases List.mem_cons.mp hg with rfl | hg
  · exact ho
  · rcases List.mem_append.mp hg with hg | hg
    · exact h g hg
    · obtain rfl := List.mem_singleton.mp hg
      exact hc

theorem flatMap_text_around (b : Bracket) (body : List Glyph) :
    (b.around body).flatMap Glyph.text = b.opening :: body.flatMap Glyph.text ++ [b.closing] := by
  rw [around, List.flatMap_cons, List.flatMap_append]
  rfl

end Bracket

/-! ### Segments -/

/-- A literal, or a group of literals between brackets of one kind. -/
inductive Segment where
  | literal (literal : Literal)
  | group (bracket : Bracket) (body : List Literal)

namespace Segment

/-- The segment as it is written in a pattern. -/
def text : Segment → Text
  | .literal l => l.text
  | .group b ls => b.opening :: ls.flatMap Literal.text ++ [b.closing]

/-- The glyphs of a segment. -/
def glyphs : Segment → List Glyph
  | .literal l => [l.glyph]
  | .group b ls => b.around (ls.map Literal.glyph)

/-- The part of a pattern that the segment is, where it stands in the pattern. -/
def part (position : Nat) : Segment → Part
  | .literal l => .free l.glyph
  | .group .curly ls => .fixed (ls.map Literal.glyph)
  | .group .square ls => .value (position + 1) (ls.map Literal.glyph)

/-- The parts of a pattern that the segments are, from a position on. -/
def parts (position : Nat) : List Segment → List Part
  | [] => []
  | s :: segments => s.part position :: parts (position + s.text.length) segments

end Segment

/-! ### Glyphs of segments -/

theorem Literal.flatMap_text_glyphs (ls : List Literal) :
    (ls.map Literal.glyph).flatMap Glyph.text = ls.flatMap Literal.text := by
  rw [List.flatMap_map]
  simp only [text_glyph]

namespace Segment

theorem flatMap_text_glyphs (s : Segment) : s.glyphs.flatMap Glyph.text = s.text := by
  cases s with
  | literal l =>
    show l.glyph.text ++ [] = l.text
    rw [List.append_nil, l.text_glyph]
  | group b ls => rw [glyphs, Bracket.flatMap_text_around, Literal.flatMap_text_glyphs, text]

theorem glyphs_closed (s : Segment) : ∀ g ∈ s.glyphs, g.Closed := by
  cases s with
  | literal l => exact List.forall_mem_singleton.mpr l.glyph_closed
  | group b ls => exact b.around_closed (List.forall_mem_map.mpr fun l _ => l.glyph_closed)

theorem flatMap_glyphs_closed (segments : List Segment) :
    ∀ g ∈ segments.flatMap glyphs, g.Closed := by
  intro g hg
  obtain ⟨s, -, hs⟩ := List.mem_flatMap.mp hg
  exact s.glyphs_closed g hs

theorem text_flatMap_glyphs (segments : List Segment) :
    (segments.flatMap glyphs).flatMap Glyph.text = segments.flatMap text := by
  rw [List.flatMap_assoc]
  simp only [flatMap_text_glyphs]

end Segment

/-! ### Reading segments -/

namespace Part

theorem readFrom_free {g : Glyph} (h : g.Inert) (position : Nat) (rest : List Glyph) :
    readFrom position none (g :: rest) =
      (.free g :: ·) <$> readFrom (position + g.width) none rest := by
  simp only [readFrom, h.1, h.2]

theorem readFrom_push {g : Glyph} (h : g.Inert) (position : Nat) (group : OpenGroup)
    (rest : List Glyph) :
    readFrom position (some group) (g :: rest) =
      readFrom (position + g.width) (some (group.push g)) rest := by
  simp only [readFrom, h.1, h.2]

theorem readFrom_opening (b : Bracket) (position : Nat) (rest : List Glyph) :
    readFrom position none (.plain b.opening :: rest) =
      readFrom (position + 1) (some ⟨b, position, []⟩) rest := by
  cases b <;> rfl

theorem readFrom_closing (group : OpenGroup) (position : Nat) (rest : List Glyph) :
    readFrom position (some group) (.plain group.bracket.closing :: rest) =
      (group.close :: ·) <$> readFrom (position + 1) none rest := by
  obtain ⟨b, _, _⟩ := group
  cases b <;> rfl

/-- Glyphs that are no brackets go into the body of an open group. -/
theorem readFrom_body {body : List Glyph} (h : ∀ g ∈ body, g.Inert) (position : Nat)
    (group : OpenGroup) (rest : List Glyph) :
    readFrom position (some group) (body ++ rest) =
      readFrom (position + (body.flatMap Glyph.text).length)
        (some { group with body := body.reverse ++ group.body }) rest := by
  induction body generalizing position group with
  | nil => rfl
  | cons g body ih =>
    obtain ⟨hg, hbody⟩ := List.forall_mem_cons.mp h
    rw [List.cons_append, readFrom_push hg, ih hbody, List.flatMap_cons, List.length_append,
      List.reverse_cons, List.append_assoc, ← Nat.add_assoc]
    rfl

/-- A group is read as the part that it is once it has been closed. -/
theorem readFrom_around (b : Bracket) {body : List Glyph} (h : ∀ g ∈ body, g.Inert)
    (position : Nat) (rest : List Glyph) :
    readFrom position none (b.around body ++ rest) =
      ((OpenGroup.mk b position body.reverse).close :: ·) <$>
        readFrom (position + ((b.around body).flatMap Glyph.text).length) none rest := by
  have hlength : ((b.around body).flatMap Glyph.text).length =
      1 + (body.flatMap Glyph.text).length + 1 := by
    rw [Bracket.flatMap_text_around, List.length_append, List.length_cons, List.length_singleton]
    omega
  have hclosing := readFrom_closing ⟨b, position, body.reverse⟩
    (position + 1 + (body.flatMap Glyph.text).length) rest
  rw [Bracket.around, List.cons_append, List.append_assoc, readFrom_opening, readFrom_body h,
    List.append_nil, List.singleton_append, hclosing, ← Bracket.around, hlength,
    Nat.add_assoc position, Nat.add_assoc position]

end Part

namespace Segment

theorem readFrom_glyphs (s : Segment) (position : Nat) (rest : List Glyph) :
    Part.readFrom position none (s.glyphs ++ rest) =
      (s.part position :: ·) <$> Part.readFrom (position + s.text.length) none rest := by
  cases s with
  | literal l =>
    show Part.readFrom position none (l.glyph :: rest) = _
    rw [Part.readFrom_free l.glyph_inert, Glyph.width, l.text_glyph]
    rfl
  | group b ls =>
    have hinert : ∀ g ∈ ls.map Literal.glyph, g.Inert :=
      List.forall_mem_map.mpr fun l _ => l.glyph_inert
    have hclose : (OpenGroup.mk b position (ls.map Literal.glyph).reverse).close =
        (group b ls).part position := by
      cases b
      · rw [OpenGroup.close, List.reverse_reverse]; rfl
      · rw [OpenGroup.close, List.reverse_reverse]; rfl
    rw [← flatMap_text_glyphs, glyphs, Part.readFrom_around b hinert, hclose]

/-- **Reading segments.** They are read as their parts, and reading goes on where they end. -/
theorem readFrom_flatMap_glyphs (segments : List Segment) (position : Nat) (rest : List Glyph) :
    Part.readFrom position none (segments.flatMap glyphs ++ rest) =
      (parts position segments ++ ·) <$>
        Part.readFrom (position + (segments.flatMap text).length) none rest := by
  induction segments generalizing position with
  | nil => exact (id_map _).symm
  | cons s segments ih =>
    rw [List.flatMap_cons, List.append_assoc, readFrom_glyphs, ih, Functor.map_map,
      List.flatMap_cons, List.length_append, Nat.add_assoc]
    rfl

theorem part_injective (position : Nat) : Function.Injective (part position) := by
  have hliterals : Function.Injective (List.map Literal.glyph) :=
    List.map_injective_iff.mpr fun _ _ => Literal.glyph_injective
  intro s s' h
  cases s with
  | literal l =>
    cases s' with
    | literal l' => rw [Literal.glyph_injective (Part.free.inj h)]
    | group b' ls' => cases b' <;> cases h
  | group b ls =>
    cases s' with
    | literal l' => cases b <;> cases h
    | group b' ls' =>
      cases b with
      | square =>
        cases b' with
        | square => rw [hliterals (Part.value.inj h).2]
        | curly => cases h
      | curly =>
        cases b' with
        | square => cases h
        | curly => rw [hliterals (Part.fixed.inj h)]

/-- No segment is an escape mark that escapes nothing. -/
theorem part_ne_dangling (s : Segment) (position : Nat) : s.part position ≠ .free .dangling := by
  cases s with
  | literal l =>
    intro h
    have hclosed := l.glyph_closed
    rw [Part.free.inj h] at hclosed
    exact hclosed
  | group b ls => cases b <;> exact nofun

end Segment

end TextMask
