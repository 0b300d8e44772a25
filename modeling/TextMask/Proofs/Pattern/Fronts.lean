import TextMask.Proofs.Pattern.Acceptance

/-!
# Fronts of patterns

To see whether the brackets of a pattern are in order, it does not matter what its groups are for.
Whatever a pattern looks like, it begins with segments, and perhaps with a group that is open behind
them, as far as to its end or to a bracket that cannot stand where it does.

* `Front`: segments, and the group that is open behind them;
* `Bracketed`, `LeavesOpen`, `InValueGroup`: brackets in order, a group left open, and the places in
  a value group, said by fronts;
* `Front.exists_front`: how far the front of a pattern reaches;
* `Front.readFrom_glyphs`: reading behind a front goes on in the group that is open there;
* `Front.Blocks.read`, `LeavesOpen.read`, `Front.read_of_covers`: what a pattern is read as, by its
  front.
-/

namespace TextMask

/-! ### Fronts -/

/-- The beginning of a pattern: its segments, and the group that is open behind them, with the
literals that it holds so far. -/
structure Front where
  segments : List Segment
  group : Option (Bracket × List Literal)

namespace Front

/-- Where the segments end, which is where the open group begins. -/
def start (f : Front) : Nat := (f.segments.flatMap Segment.text).length

/-- The beginning of a pattern as it is written. -/
def text (f : Front) : Text :=
  f.segments.flatMap Segment.text ++
    f.group.elim [] fun g => g.1.opening :: g.2.flatMap Literal.text

/-- The front is the whole of the pattern, but for an escape mark that escapes nothing. -/
def Covers (f : Front) (p : Text) : Prop := p = f.text ∨ p = f.text ++ [escapeMark]

end Front

/-- The brackets of the pattern are in order: it consists of literals and of closed groups of
literals. An escape mark may be left over at its end. -/
def Bracketed (p : Text) : Prop := ∃ f : Front, f.group = none ∧ f.Covers p

/-- The pattern ends in a group that a bracket opens at the given position. -/
def LeavesOpen (p : Text) (b : Bracket) (k : Nat) : Prop :=
  ∃ (f : Front) (body : List Literal), f.group = some (b, body) ∧ f.start = k ∧ f.Covers p

/-- The position lies between the brackets of a value group of the pattern. -/
def InValueGroup (p : Text) (k : Nat) : Prop :=
  ∃ (f : Front) (body : List Literal) (rest : Text), f.group = some (.square, body) ∧
    p = f.text ++ Bracket.square.closing :: rest ∧ f.start < k ∧ k < f.text.length

/-! ### Reading behind a front -/

/-- A bracket of another kind does not close an open group. -/
theorem Part.readFrom_unexpected {group : OpenGroup} {b : Bracket} (h : group.bracket ≠ b)
    (position : Nat) (rest : List Glyph) :
    readFrom position (some group) (.plain b.closing :: rest) =
      .error (.unexpected b position) := by
  have hopens : (Glyph.plain b.closing).opens? = none := by cases b <;> rfl
  have hcloses : (Glyph.plain b.closing).closes? = some b := by cases b <;> rfl
  simp only [readFrom, hopens, hcloses, if_neg h]

namespace Front

/-- The glyphs of a front. -/
def glyphs (f : Front) : List Glyph :=
  f.segments.flatMap Segment.glyphs ++
    f.group.elim [] fun g => .plain g.1.opening :: g.2.map Literal.glyph

/-- The group that is open behind a front, as it is read. -/
def openGroup (f : Front) : Option OpenGroup :=
  f.group.map fun g => ⟨g.1, f.start, (g.2.map Literal.glyph).reverse⟩

theorem flatMap_text_glyphs (f : Front) : f.glyphs.flatMap Glyph.text = f.text := by
  rw [glyphs, List.flatMap_append, Segment.text_flatMap_glyphs, text]
  cases f.group with
  | none => rfl
  | some g =>
    show _ ++ ([g.1.opening] ++ (g.2.map Literal.glyph).flatMap Glyph.text) = _
    rw [Literal.flatMap_text_glyphs]
    rfl

theorem glyphs_closed (f : Front) : ∀ g ∈ f.glyphs, g.Closed := by
  intro g hg
  rcases List.mem_append.mp hg with hg | hg
  · exact Segment.flatMap_glyphs_closed f.segments g hg
  · cases hgroup : f.group with
    | none => rw [hgroup] at hg; cases hg
    | some group =>
      rw [hgroup] at hg
      rcases List.mem_cons.mp hg with rfl | hg
      · show group.1.opening ≠ escapeMark
        cases group.1 <;> decide
      · obtain ⟨l, -, rfl⟩ := List.mem_map.mp hg
        exact l.glyph_closed

theorem readFrom_glyphs (f : Front) (rest : List Glyph) :
    Part.readFrom 0 none (f.glyphs ++ rest) =
      (Segment.parts 0 f.segments ++ ·) <$>
        Part.readFrom f.text.length f.openGroup rest := by
  rw [glyphs, List.append_assoc, Segment.readFrom_flatMap_glyphs, Nat.zero_add, text, openGroup,
    ← start]
  cases f.group with
  | none =>
    simp only [Option.elim_none, List.nil_append, List.append_nil]
    rfl
  | some g =>
    have hinert : ∀ l ∈ g.2.map Literal.glyph, l.Inert :=
      List.forall_mem_map.mpr fun l _ => l.glyph_inert
    simp only [Option.elim_some, List.cons_append, Part.readFrom_opening,
      Part.readFrom_body hinert, Literal.flatMap_text_glyphs, List.append_nil, List.length_append,
      List.length_cons, Option.map_some]
    rw [start, Nat.add_assoc, Nat.add_comm 1]

/-- **Reading behind a front** goes on where the front ends, in the group that is open there. -/
theorem read_append (f : Front) (q : Text) :
    Part.read (f.text ++ q) =
      (Segment.parts 0 f.segments ++ ·) <$>
        Part.readFrom f.text.length f.openGroup (Glyph.read q) := by
  rw [Part.read, ← f.flatMap_text_glyphs, Glyph.read_flatMap_append f.glyphs_closed,
    readFrom_glyphs, f.flatMap_text_glyphs]

/-- The group of a front takes up what its segments leave. -/
theorem length_text {f : Front} {b : Bracket} {body : List Literal}
    (h : f.group = some (b, body)) :
    f.text.length = f.start + (body.flatMap Literal.text).length + 1 := by
  rw [text, h, List.length_append, Nat.add_assoc]
  rfl

/-! ### How far a front reaches -/

/-- A bracket that cannot stand behind the front, and the fault that it is: it opens a group inside
of a group, or it closes a group that is not open. -/
inductive Blocks (f : Front) : Char → PatternFault → Prop
  | nested (b : Bracket) {g : Bracket × List Literal} :
      f.group = some g → Blocks f b.opening (.nested b f.text.length)
  | unexpected (b : Bracket) :
      (∀ body, f.group ≠ some (b, body)) → Blocks f b.closing (.unexpected b f.text.length)

/-- The front with one more literal. -/
def push (l : Literal) : Front → Front
  | ⟨segments, none⟩ => ⟨segments ++ [.literal l], none⟩
  | ⟨segments, some (b, body)⟩ => ⟨segments, some (b, body ++ [l])⟩

theorem text_push (f : Front) (l : Literal) : (f.push l).text = f.text ++ l.text := by
  obtain ⟨segments, group⟩ := f
  cases group with
  | none => simp [push, text, Segment.text]
  | some g => simp [push, text]

theorem text_open (segments : List Segment) (b : Bracket) :
    (Front.mk segments (some (b, []))).text = (Front.mk segments none).text ++ [b.opening] := by
  simp [text]

theorem text_close (segments : List Segment) (b : Bracket) (body : List Literal) :
    (Front.mk (segments ++ [.group b body]) none).text =
      (Front.mk segments (some (b, body))).text ++ [b.closing] := by
  simp [text, Segment.text]

/-- Every text that follows a front can be added to it, as far as to a bracket that is misplaced. -/
theorem exists_extension (f : Front) (q : Text) :
    ∃ f' : Front, f'.Covers (f.text ++ q) ∨
      ∃ c fault rest, f.text ++ q = f'.text ++ c :: rest ∧ f'.Blocks c fault := by
  induction q using Glyph.read.induct generalizing f with
  | case1 => exact ⟨f, Or.inl (Or.inl (List.append_nil _))⟩
  | case2 => exact ⟨f, Or.inl (Or.inr rfl)⟩
  | case3 c rest ih =>
    obtain ⟨f', h⟩ := ih (f.push ⟨c, true, fun _ => rfl⟩)
    rw [text_push, List.append_assoc] at h
    exact ⟨f', h⟩
  | case4 c rest hc ih =>
    -- a character that is no escape mark is an opening bracket, a closing one, or a literal
    cases hopens : Bracket.ofOpening? c with
    | some b =>
      obtain rfl : c = b.opening := Bracket.eq_of_choice hopens
      obtain ⟨segments, group⟩ := f
      cases group with
      | some g => exact ⟨_, Or.inr ⟨_, _, rest, rfl, .nested b rfl⟩⟩
      | none =>
        obtain ⟨f', h⟩ := ih ⟨segments, some (b, [])⟩
        rw [text_open, List.append_assoc] at h
        exact ⟨f', h⟩
    | none =>
      cases hcloses : Bracket.ofClosing? c with
      | some b =>
        obtain rfl : c = b.closing := Bracket.eq_of_choice hcloses
        by_cases hgroup : ∃ body, f.group = some (b, body)
        · obtain ⟨body, hbody⟩ := hgroup
          obtain ⟨segments, group⟩ := f
          obtain rfl : group = some (b, body) := hbody
          obtain ⟨f', h⟩ := ih ⟨segments ++ [.group b body], none⟩
          rw [text_close, List.append_assoc] at h
          exact ⟨f', h⟩
        · exact ⟨f, Or.inr ⟨_, _, rest, rfl, .unexpected b fun body h => hgroup ⟨body, h⟩⟩⟩
      | none =>
        obtain ⟨l, hl⟩ := Literal.exists_of_glyph (g := .plain c) hc ⟨hopens, hcloses⟩
        have htext : l.text = [c] := by
          rw [← l.text_glyph, hl]
          rfl
        obtain ⟨f', h⟩ := ih (f.push l)
        rw [text_push, htext, List.append_assoc] at h
        exact ⟨f', h⟩

/-- **The front of a pattern** reaches to its end, or to a bracket that cannot stand there. -/
theorem exists_front (p : Text) :
    ∃ f : Front, f.Covers p ∨
      ∃ c fault rest, p = f.text ++ c :: rest ∧ f.Blocks c fault := exists_extension ⟨[], none⟩ p

/-! ### What patterns are read as -/

/-- A misplaced bracket is where reading fails. -/
theorem Blocks.read {f : Front} {c : Char} {fault : PatternFault} (h : f.Blocks c fault)
    (rest : Text) : Part.read (f.text ++ c :: rest) = .error fault := by
  have hc : (Glyph.plain c).Closed := by
    show c ≠ escapeMark
    cases h with
    | nested b hg => cases b <;> decide
    | unexpected b hg => cases b <;> decide
  have hread : Glyph.read (c :: rest) = .plain c :: Glyph.read rest := Glyph.read_append hc rest
  rw [read_append, hread, openGroup]
  refine Except.map_eq_error_iff.mpr ?_
  cases h with
  | nested b hg =>
    rw [hg]
    cases b <;> rfl
  | unexpected b hg =>
    cases hgroup : f.group with
    | none => cases b <;> rfl
    | some g =>
      obtain ⟨b', body⟩ := g
      have hne : b' ≠ b := by
        rintro rfl
        exact hg body hgroup
      exact Part.readFrom_unexpected hne _ _

/-- A pattern whose front is closed is read as its segments. -/
theorem read_of_covers {f : Front} {p : Text} (h : f.Covers p) (hgroup : f.group = none) :
    ∃ tail, (tail = [] ∨ tail = [.free .dangling]) ∧
      Part.read p = .ok (Segment.parts 0 f.segments ++ tail) := by
  rcases h with h | rfl
  · refine ⟨[], Or.inl rfl, ?_⟩
    rw [h, ← List.append_nil f.text, read_append, openGroup, hgroup]
    rfl
  · refine ⟨_, Or.inr rfl, ?_⟩
    rw [read_append, openGroup, hgroup]
    rfl

end Front

/-- A group that is left open is reported with the position of its bracket. -/
theorem LeavesOpen.read {p : Text} {b : Bracket} {k : Nat} (h : LeavesOpen p b k) :
    Part.read p = .error (.unclosed b k) := by
  obtain ⟨f, body, hgroup, rfl, hcovers⟩ := h
  rcases hcovers with h | rfl
  · rw [h, ← List.append_nil f.text, Front.read_append, Front.openGroup, hgroup]
    rfl
  · rw [Front.read_append, Front.openGroup, hgroup]
    rfl

end TextMask
