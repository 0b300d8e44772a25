import Mathlib.Algebra.Group.Nat.Even
import TextMask.Proofs.Pattern.Acceptance

/-!
# Patterns behind one another

Behind a pattern that has a normal form no group is open. If no escape mark is left over at its end
either, whatever follows is read as if it stood alone: the normal form of the whole is made of the
two normal forms, and a fault of the second pattern is told with its place in the whole.

* `PatternFault.shift`, `Part.shift`: faults and parts of a pattern with a text in front of it;
* `Part.readFrom_shift`, `Part.mapM_normalize_shift`: both passes over a pattern only count on;
* `EndsPaired`: the escape marks at the end of a pattern are pairs;
* `Outline.dangling_eq_false`: so that none of them is left over;
* `Outline.normalForm_append`: the normal form of a pattern with another one behind it.
-/

namespace TextMask

/-! ### Counting on -/

namespace PatternFault

/-- The same fault in a pattern with a text of the given length in front of it. -/
def shift (n : Nat) : PatternFault → PatternFault
  | .nested b k => .nested b (n + k)
  | .unexpected b k => .unexpected b (n + k)
  | .unclosed b k => .unclosed b (n + k)
  | .unsupported c k => .unsupported c (k.map (n + ·))
  | .looseEllipsis => .looseEllipsis

theorem position_shift (n : Nat) (fault : PatternFault) :
    (fault.shift n).position = fault.position.map (n + ·) := by
  cases fault <;> rfl

end PatternFault

/-- The open group with a text of the given length in front of its pattern. -/
def OpenGroup.shift (n : Nat) (group : OpenGroup) : OpenGroup :=
  { group with position := n + group.position }

/-- The part with a text of the given length in front of its pattern. -/
def Part.shift (n : Nat) : Part → Part
  | .value start body => .value (n + start) body
  | part => part

theorem OpenGroup.close_shift (n : Nat) (group : OpenGroup) :
    (group.shift n).close = group.close.shift n := by
  obtain ⟨b, _, _⟩ := group
  cases b <;> rfl

/-- The brackets of a pattern are checked in the same way wherever it begins. -/
theorem Part.readFrom_shift (n position : Nat) (group : Option OpenGroup) (gs : List Glyph) :
    readFrom (n + position) (group.map (OpenGroup.shift n)) gs =
      (List.map (shift n) <$> readFrom position group gs).mapError (PatternFault.shift n) := by
  have hcons (part : Part) (parts : Except PatternFault (List Part)) :
      (part.shift n :: ·) <$> (List.map (shift n) <$> parts).mapError (PatternFault.shift n) =
        (List.map (shift n) <$> (part :: ·) <$> parts).mapError (PatternFault.shift n) := by
    cases parts <;> rfl
  fun_induction readFrom position group gs with
  | case1 => rfl
  | case2 position group => rfl
  | case3 position g rest group b ho =>
    simp only [readFrom, Option.map_some, ho]
    rfl
  | case4 position g rest after b ho ih =>
    simp only [readFrom, Option.map_none, ho]
    rw [Nat.add_assoc, ← ih]
    rfl
  | case5 position g rest b hc ho =>
    simp only [readFrom, Option.map_none, hc, ho]
    rfl
  | case6 position g rest after group ho hc ih =>
    have hbracket : (group.shift n).bracket = group.bracket := rfl
    simp only [readFrom, Option.map_some, hc, ho, hbracket, if_true]
    rw [Nat.add_assoc, OpenGroup.close_shift, ← hcons, ← ih]
    rfl
  | case7 position g rest group b hc ho hne =>
    have hbracket : (group.shift n).bracket = group.bracket := rfl
    simp only [readFrom, Option.map_some, hc, ho, hbracket, if_neg hne]
    rfl
  | case8 position g rest after hc ho ih =>
    simp only [readFrom, Option.map_none, hc, ho]
    rw [Nat.add_assoc, ← hcons, ← ih]
    rfl
  | case9 position g rest after group hc ho ih =>
    simp only [readFrom, Option.map_some, hc, ho]
    rw [Nat.add_assoc, ← ih]
    rfl

theorem Entry.read_shift (n position : Nat) (gs : List Glyph) :
    read (n + position) gs = (read position gs).mapError (PatternFault.shift n) := by
  fun_induction read position gs with
  | case1 => rfl
  | case2 position c rest e hc ih =>
    rw [read, hc, Nat.add_assoc]
    show (e :: ·) <$> read (n + (position + 1)) rest = _
    rw [ih]
    cases read (position + 1) rest <;> rfl
  | case3 position c rest hc =>
    rw [read, hc]
    rfl
  | case4 position g rest hg =>
    rw [read.eq_3 _ _ _ hg]
    rfl

namespace Part

theorem normalize_shift (n : Nat) (part : Part) :
    (part.shift n).normalize = part.normalize.mapError (PatternFault.shift n) := by
  cases part with
  | free g => rfl
  | fixed body => rfl
  | value start body =>
    rw [shift, normalize, normalize, Entry.read_shift]
    cases Entry.read start body <;> rfl

/-- So are its symbols. -/
theorem mapM_normalize_shift (n : Nat) (parts : List Part) :
    (parts.map (shift n)).mapM normalize =
      (parts.mapM normalize).mapError (PatternFault.shift n) := by
  induction parts with
  | nil => rfl
  | cons part parts ih =>
    rw [List.map_cons, List.mapM_cons, List.mapM_cons, ih, normalize_shift]
    cases part.normalize with
    | error fault => rfl
    | ok text => cases parts.mapM normalize <;> rfl

end Part

/-! ### Escape marks at the end -/

/-- The number of escape marks that a text ends in. -/
def escapesAtEnd (p : Text) : Nat := (p.reverse.takeWhile (· == escapeMark)).length

/-- The escape marks that the text ends in are pairs, so that each of them escapes or is escaped. -/
def EndsPaired (p : Text) : Prop := Even (escapesAtEnd p)

instance (p : Text) : Decidable (EndsPaired p) := inferInstanceAs (Decidable (Even _))

theorem escapesAtEnd_append_escapeMark (p : Text) :
    escapesAtEnd (p ++ [escapeMark]) = escapesAtEnd p + 1 := by
  rw [escapesAtEnd, List.reverse_concat, List.takeWhile_cons, if_pos (beq_self_eq_true _)]
  rfl

theorem escapesAtEnd_append_of_ne {c : Char} (h : c ≠ escapeMark) (p : Text) :
    escapesAtEnd (p ++ [c]) = 0 := by
  rw [escapesAtEnd, List.reverse_concat, List.takeWhile_cons,
    if_neg fun hc => h (beq_iff_eq.mp hc)]
  rfl

/-- Complete glyphs leave no escape mark over. -/
theorem Glyph.even_escapesAtEnd {gs : List Glyph} (h : ∀ g ∈ gs, g.Closed) :
    Even (escapesAtEnd (gs.flatMap text)) := by
  induction gs using List.reverseRecOn with
  | nil => exact ⟨0, rfl⟩
  | append_singleton gs g ih =>
    obtain ⟨hgs, hg⟩ := List.forall_mem_append.mp h
    have hg := List.forall_mem_singleton.mp hg
    rw [List.flatMap_append, List.flatMap_singleton]
    cases g with
    | plain c =>
      rw [text, escapesAtEnd_append_of_ne hg]
      exact ⟨0, rfl⟩
    | escaped c =>
      rw [text, List.append_cons]
      by_cases hc : c = escapeMark
      · obtain ⟨k, hk⟩ := ih hgs
        rw [hc, escapesAtEnd_append_escapeMark, escapesAtEnd_append_escapeMark]
        exact ⟨k + 1, by omega⟩
      · rw [escapesAtEnd_append_of_ne hc]
        exact ⟨0, rfl⟩
    | dangling => exact absurd hg id

namespace Outline

variable {o : Outline}

/-- A pattern that ends in pairs of escape marks leaves none over. -/
theorem dangling_eq_false (h : EndsPaired o.text) : o.dangling = false := by
  have hitems := Glyph.even_escapesAtEnd (Item.flatMap_glyphs_closed o.items)
  rw [Item.text_flatMap_glyphs] at hitems
  cases hd : o.dangling with
  | false => rfl
  | true =>
    rw [EndsPaired, text, hd, if_pos rfl, escapesAtEnd_append_escapeMark] at h
    exact absurd hitems (Nat.even_add_one.mp h)

/-- A pattern that leaves no escape mark over is its items. -/
theorem text_eq (h : o.dangling = false) : o.text = o.items.flatMap Item.text := by
  rw [text, h]
  exact List.append_nil _

/-- A pattern that leaves no escape mark over ends in pairs of them. -/
theorem endsPaired_text (h : o.dangling = false) : EndsPaired o.text := by
  have hitems := Glyph.even_escapesAtEnd (Item.flatMap_glyphs_closed o.items)
  rwa [Item.text_flatMap_glyphs, ← text_eq h] at hitems

/-! ### Joined patterns -/

/-- Behind a pattern that leaves nothing open, parts are read as if they came first. -/
theorem read_append (h : o.dangling = false) (q : Text) :
    Part.read (o.text ++ q) =
      (Item.parts 0 o.items ++ ·) <$>
        (List.map (Part.shift o.text.length) <$> Part.read q).mapError
          (PatternFault.shift o.text.length) := by
  have hshift := Part.readFrom_shift o.text.length 0 none (Glyph.read q)
  rw [Option.map_none, ← Part.read, Nat.add_zero, text_eq h] at hshift
  rw [text_eq h, ← hshift, Part.read]
  nth_rewrite 1 [← Item.text_flatMap_glyphs]
  rw [Glyph.read_flatMap_append (Item.flatMap_glyphs_closed o.items),
    Item.readFrom_flatMap_glyphs, Nat.zero_add]

/-- **The normal form of joined patterns.** Behind a pattern that leaves nothing open, a pattern has
the normal form that it has alone, or the fault that it has alone. -/
theorem normalForm_append (h : o.dangling = false) (q : Text) :
    normalForm (o.text ++ q) =
      ((o.normal.text ++ ·) <$> normalForm q).mapError (PatternFault.shift o.text.length) := by
  have htext : (o.items.map fun i => i.normal.flatMap Item.text).flatten = o.normal.text := by
    rw [text_eq (o := o.normal) h, normal, List.flatMap_assoc, ← List.flatMap_def]
  rw [normalForm, normalForm, read_append h]
  cases Part.read q with
  | error fault => rfl
  | ok parts =>
    show (Item.parts 0 o.items ++ parts.map (Part.shift _)).mapM Part.normalize >>= _ =
      ((o.normal.text ++ ·) <$>
        (parts.mapM Part.normalize >>= fun texts => pure texts.flatten)).mapError _
    rw [List.mapM_append, Item.mapM_normalize_parts, Part.mapM_normalize_shift]
    cases parts.mapM Part.normalize with
    | error fault => rfl
    | ok texts =>
      rw [← htext]
      show Except.ok (_ ++ texts).flatten = .ok (_ ++ texts.flatten)
      rw [List.flatten_append]

end Outline

end TextMask
