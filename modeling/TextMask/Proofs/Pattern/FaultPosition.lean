import Mathlib.Order.Bounds.Basic
import TextMask.Proofs.Pattern.Fronts
import TextMask.Proofs.Pattern.Grammar

/-!
# Where a refused pattern is at fault

The brackets of a pattern are checked first. A bracket that cannot stand where it does is the first
place behind which the pattern cannot be completed any more; if there is none, a group may be left
open, and its bracket is the place. Only when all brackets are in order do the characters in value
groups count, and the place is then the first of them that is no symbol and no ellipsis.

* `deadEnds`, `strays`: the places behind which nothing helps, and those of unsupported characters;
* `Front.Blocks.isLeast_deadEnds`, `Front.Covers.deadEnds_eq`: the first dead end;
* `Segment.fault_of_mapM`: the segment in which the first unsupported character stands;
* `Front.Covers.isLeast_strays`: so it is the first of all;
* `PatternFault.PointsInto`: the place that a fault of each kind points to;
* `normalize_fault_position`: the fault that a refused pattern is told with, and its place.
-/

namespace TextMask

/-! ### Dead ends -/

/-- No pattern that begins with the text has its brackets in order. -/
def Hopeless (t : Text) : Prop := ∀ rest, ¬ Bracketed (t ++ rest)

/-- The positions of a pattern up to which, the character there included, it is hopeless. -/
def deadEnds (p : Text) : Set Nat := {k | k < p.length ∧ Hopeless (p.take (k + 1))}

theorem Bracketed.read {p : Text} (h : Bracketed p) : ∃ parts, Part.read p = .ok parts := by
  obtain ⟨f, hgroup, hcovers⟩ := h
  obtain ⟨tail, -, hread⟩ := Front.read_of_covers hcovers hgroup
  exact ⟨_, hread⟩

theorem not_hopeless_take {p rest : Text} (h : Bracketed (p ++ rest)) (k : Nat) :
    ¬ Hopeless (p.take k) := by
  intro hhopeless
  have hrest := hhopeless (p.drop k ++ rest)
  rw [← List.append_assoc, List.take_append_drop] at hrest
  exact hrest h

namespace Front

variable {f : Front} {p : Text} {c : Char} {fault : PatternFault}

/-- A front can be completed: the open group is closed. -/
theorem exists_bracketed (f : Front) : ∃ rest, Bracketed (f.text ++ rest) := by
  obtain ⟨segments, group⟩ := f
  cases group with
  | none => exact ⟨[], _, rfl, Or.inl (List.append_nil _)⟩
  | some g =>
    refine ⟨[g.1.closing], ⟨segments ++ [.group g.1 g.2], none⟩, rfl, Or.inl ?_⟩
    rw [text_close]

/-- So can a pattern that is all front. An escape mark at its end is given something to escape. -/
theorem Covers.exists_bracketed (h : f.Covers p) : ∃ rest, Bracketed (p ++ rest) := by
  rcases h with rfl | rfl
  · exact f.exists_bracketed
  · obtain ⟨rest, hrest⟩ := (f.push ⟨escapeMark, true, fun _ => rfl⟩).exists_bracketed
    refine ⟨escapeMark :: rest, ?_⟩
    rw [text_push, List.append_assoc] at hrest
    rw [List.append_assoc]
    exact hrest

theorem Covers.deadEnds_eq (h : f.Covers p) : deadEnds p = ∅ := by
  refine Set.eq_empty_iff_forall_notMem.mpr fun k hk => ?_
  obtain ⟨rest, hrest⟩ := h.exists_bracketed
  exact not_hopeless_take hrest (k + 1) hk.2

/-- Behind a misplaced bracket nothing helps. -/
theorem Blocks.hopeless (h : f.Blocks c fault) : Hopeless (f.text ++ [c]) := by
  intro rest hbracketed
  rw [List.append_assoc] at hbracketed
  obtain ⟨parts, hparts⟩ := hbracketed.read
  have herror := h.read rest
  rw [← List.singleton_append, hparts] at herror
  cases herror

/-- **The first dead end** is the bracket that cannot stand behind the front. -/
theorem Blocks.isLeast_deadEnds (h : f.Blocks c fault) (rest : Text) :
    IsLeast (deadEnds (f.text ++ c :: rest)) f.text.length := by
  constructor
  · refine ⟨by simp, ?_⟩
    rw [List.take_length_add_append]
    exact h.hopeless
  · rintro k ⟨-, hhopeless⟩
    by_contra hlt
    obtain ⟨rest', hrest'⟩ := f.exists_bracketed
    rw [List.take_append_of_le_length (by omega)] at hhopeless
    exact not_hopeless_take hrest' (k + 1) hhopeless

end Front

/-! ### Unsupported characters of a group -/

/-- The positions in value groups of a pattern whose characters are no symbols and no ellipses. -/
def strays (p : Text) : Set Nat :=
  {k | InValueGroup p k ∧ ∃ c, p[k]? = some c ∧ c ∉ Grammar.symbols}

/-- The first character of a body that a value group cannot hold, with what stands before it. -/
structure FirstStray (body before : Text) (c : Char) : Prop where
  before_mem : ∀ d ∈ before, d ∈ Grammar.symbols
  not_mem : c ∉ Grammar.symbols
  begins : before ++ [c] <+: body

theorem FirstStray.head {c : Char} (h : c ∉ Grammar.symbols) (rest : Text) :
    FirstStray (c :: rest) [] c :=
  ⟨List.forall_mem_nil _, h, ⟨rest, rfl⟩⟩

theorem FirstStray.cons {body before : Text} {c d : Char} (h : FirstStray body before c)
    (hd : d ∈ Grammar.symbols) : FirstStray (d :: body) (d :: before) c :=
  ⟨List.forall_mem_cons.mpr ⟨hd, h.before_mem⟩, h.not_mem,
    List.cons_prefix_cons.mpr ⟨rfl, h.begins⟩⟩

/-- Reading the body of a value group finds the first character that it cannot hold. -/
theorem Literal.read_entries (ls : List Literal) (position : Nat) :
    (∃ es, Entry.read position (ls.map glyph) = .ok es) ∧
        (∀ c ∈ ls.flatMap text, c ∈ Grammar.symbols) ∨
      ∃ before c, FirstStray (ls.flatMap text) before c ∧
        Entry.read position (ls.map glyph) =
          .error (.unsupported c (some (position + before.length))) := by
  induction ls generalizing position with
  | nil => exact Or.inl ⟨⟨[], rfl⟩, List.forall_mem_nil _⟩
  | cons l ls ih =>
    obtain ⟨c, b, hguarded⟩ := l
    cases b with
    | true => exact Or.inr ⟨[], escapeMark, .head (by decide) _, rfl⟩
    | false =>
      show (∃ es, Entry.read position (.plain c :: ls.map glyph) = .ok es) ∧
          (∀ d ∈ c :: ls.flatMap text, d ∈ Grammar.symbols) ∨ ∃ before d,
            FirstStray (c :: ls.flatMap text) before d ∧
              Entry.read position (.plain c :: ls.map glyph) = _
      cases hc : Entry.ofChar? c with
      | none =>
        refine Or.inr ⟨[], c, .head (fun hmem => ?_) _, ?_⟩
        · obtain ⟨e, rfl⟩ := Entry.exists_toChar_iff.mpr hmem
          cases hc.symm.trans e.ofChar?_toChar
        · rw [Entry.read, hc]
          rfl
      | some e =>
        have hmem : c ∈ Grammar.symbols :=
          Entry.exists_toChar_iff.mp ⟨e, Entry.toChar_of_ofChar? hc⟩
        have hread : Entry.read position (.plain c :: ls.map glyph) =
            (e :: ·) <$> Entry.read (position + 1) (ls.map glyph) := by
          rw [Entry.read, hc]
        rw [hread]
        rcases ih (position + 1) with ⟨⟨es, hes⟩, hclean⟩ | ⟨before, d, hfirst, herror⟩
        · exact Or.inl ⟨⟨e :: es, by rw [hes]; rfl⟩, List.forall_mem_cons.mpr ⟨hmem, hclean⟩⟩
        · refine Or.inr ⟨c :: before, d, hfirst.cons hmem, ?_⟩
          rw [herror, List.length_cons, Nat.add_assoc, Nat.add_comm 1]
          rfl

namespace Segment

/-- A segment with nothing in it that it cannot hold. -/
def Clean : Segment → Prop
  | .group .square body => ∀ c ∈ body.flatMap Literal.text, c ∈ Grammar.symbols
  | _ => True

/-- A segment is normalized if it is clean, and fails at the first character that it cannot hold. -/
theorem normalize_part (s : Segment) (position : Nat) :
    (∃ text, (s.part position).normalize = .ok text) ∧ s.Clean ∨
      ∃ body before c, s = .group .square body ∧
        FirstStray (body.flatMap Literal.text) before c ∧
        (s.part position).normalize =
          .error (.unsupported c (some (position + 1 + before.length))) := by
  cases s with
  | literal l => exact Or.inl ⟨⟨_, rfl⟩, trivial⟩
  | group b body =>
    cases b with
    | curly => exact Or.inl ⟨⟨_, rfl⟩, trivial⟩
    | square =>
      rcases Literal.read_entries body (position + 1) with
        ⟨⟨es, hes⟩, hclean⟩ | ⟨before, c, hfirst, herror⟩
      · exact Or.inl ⟨⟨_, Except.map_eq_ok_iff.mpr ⟨es, hes, rfl⟩⟩, hclean⟩
      · exact Or.inr ⟨body, before, c, rfl, hfirst, Except.map_eq_error_iff.mpr herror⟩

/-- **The first fault of the segments** is the first unsupported character of the first segment that
is not clean. -/
theorem fault_of_mapM {segments : List Segment} {position : Nat} {tail : List Part}
    {fault : PatternFault} (htail : ∃ texts, tail.mapM Part.normalize = .ok texts)
    (h : (parts position segments ++ tail).mapM Part.normalize = .error fault) :
    ∃ front body back before c, segments = front ++ .group .square body :: back ∧
      (∀ s ∈ front, s.Clean) ∧ FirstStray (body.flatMap Literal.text) before c ∧
      fault = .unsupported c
        (some (position + (front.flatMap text).length + 1 + before.length)) := by
  induction segments generalizing position with
  | nil =>
    obtain ⟨texts, htexts⟩ := htail
    cases htexts.symm.trans h
  | cons s segments ih =>
    rw [parts, List.cons_append, List.mapM_cons] at h
    rcases s.normalize_part position with
      ⟨⟨t, ht⟩, hclean⟩ | ⟨body, before, c, rfl, hfirst, herror⟩
    · rw [ht] at h
      rcases Except.bind_eq_error_iff.mp h with hnone | ⟨t', -, hrest⟩
      · cases hnone
      · rcases Except.bind_eq_error_iff.mp hrest with hrest | ⟨texts, -, hpure⟩
        · obtain ⟨front, body, back, before, c, rfl, hfront, hfirst, rfl⟩ := ih hrest
          refine ⟨s :: front, body, back, before, c, rfl,
            List.forall_mem_cons.mpr ⟨hclean, hfront⟩, hfirst, ?_⟩
          rw [List.flatMap_cons, List.length_append, Nat.add_assoc position]
        · cases hpure
    · rw [herror] at h
      exact ⟨[], body, segments, before, c, rfl, List.forall_mem_nil _, hfirst,
        (Except.error.inj h).symm⟩

/-! ### Segments that come first -/

/-- If the parts of some segments come first, so do the segments. -/
theorem exists_append_of_parts {segments front : List Segment} {position : Nat}
    {tail more : List Part} (htail : tail = [] ∨ tail = [.free .dangling])
    (h : parts position segments ++ tail = parts position front ++ more) :
    ∃ back, segments = front ++ back := by
  induction front generalizing segments position with
  | nil => exact ⟨segments, rfl⟩
  | cons s front ih =>
    cases segments with
    | nil =>
      rcases htail with rfl | rfl
      · cases h
      · exact absurd (List.cons.inj h).1.symm (s.part_ne_dangling position)
    | cons s' segments =>
      obtain ⟨hs, hrest⟩ := List.cons.inj h
      obtain rfl := part_injective position hs
      obtain ⟨back, rfl⟩ := ih hrest
      exact ⟨back, rfl⟩

end Segment

/-! ### The first unsupported character -/

namespace Front

variable {f : Front} {p : Text}

/-- A value group of a pattern with its brackets in order is one of the segments. -/
theorem Covers.exists_append (h : f.Covers p) (hgroup : f.group = none) {front : List Segment}
    {b : Bracket} {body : List Literal} {rest : Text}
    (hp : p = (Front.mk front (some (b, body))).text ++ b.closing :: rest) :
    ∃ back, f.segments = front ++ .group b body :: back := by
  obtain ⟨tail, htail, hread⟩ := read_of_covers h hgroup
  rw [← List.singleton_append, ← List.append_assoc, ← text_close] at hp
  rw [hp, read_append] at hread
  obtain ⟨more, -, hmore⟩ := Except.map_eq_ok_iff.mp hread
  obtain ⟨back, hback⟩ := Segment.exists_append_of_parts htail hmore.symm
  refine ⟨back, ?_⟩
  rw [hback, List.append_assoc]
  rfl

/-- What stands in the open group of a front stands in its body. -/
theorem getElem?_text_append {front : List Segment} {b : Bracket} {body : List Literal} {k : Nat}
    (hstart : (Front.mk front (some (b, body))).start < k)
    (hend : k < (Front.mk front (some (b, body))).text.length) (rest : Text) :
    ((Front.mk front (some (b, body))).text ++ rest)[k]? =
      (body.flatMap Literal.text)[k - (front.flatMap Segment.text).length - 1]? := by
  have hlt : (front.flatMap Segment.text).length < k := hstart
  obtain ⟨j, rfl⟩ := Nat.exists_eq_add_of_lt hlt
  rw [List.getElem?_append_left hend]
  show (front.flatMap Segment.text ++ b.opening :: body.flatMap Literal.text)[_]? = _
  rw [List.getElem?_append_right (by omega)]
  have hsucc : (front.flatMap Segment.text).length + j + 1 - (front.flatMap Segment.text).length =
      j + 1 := by omega
  rw [hsucc, List.getElem?_cons_succ, Nat.add_sub_cancel]

/-- A pattern with a value group among its segments, as far as to the end of the group. -/
theorem Covers.exists_rest (h : f.Covers p) (hgroup : f.group = none) {front back : List Segment}
    {b : Bracket} {body : List Literal} (hsegments : f.segments = front ++ .group b body :: back) :
    ∃ rest, p = (Front.mk front (some (b, body))).text ++ b.closing :: rest := by
  have htext : f.text =
      (Front.mk front (some (b, body))).text ++ b.closing :: back.flatMap Segment.text := by
    simp [text, hgroup, hsegments, Segment.text]
  rcases h with h | h
  · exact ⟨_, h.trans htext⟩
  · refine ⟨back.flatMap Segment.text ++ [escapeMark], ?_⟩
    rw [h, htext, List.append_assoc]
    rfl

/-- **The first unsupported character** of a pattern with its brackets in order is the first one of
the first group that is not clean. -/
theorem Covers.isLeast_strays (h : f.Covers p) (hgroup : f.group = none)
    {front back : List Segment} {body : List Literal} {before : Text} {c : Char}
    (hsegments : f.segments = front ++ .group .square body :: back)
    (hclean : ∀ s ∈ front, s.Clean) (hfirst : FirstStray (body.flatMap Literal.text) before c) :
    IsLeast (strays p) ((front.flatMap Segment.text).length + 1 + before.length) ∧
      p[(front.flatMap Segment.text).length + 1 + before.length]? = some c := by
  obtain ⟨rest, hp⟩ := h.exists_rest hgroup hsegments
  obtain ⟨after, hbody⟩ := hfirst.begins
  have hlength : before.length < (body.flatMap Literal.text).length := by
    rw [← hbody]
    simp
  have hfront : (Front.mk front (some (Bracket.square, body))).start =
      (front.flatMap Segment.text).length := rfl
  have hstart : (Front.mk front (some (.square, body))).start <
      (front.flatMap Segment.text).length + 1 + before.length := by
    rw [hfront]
    omega
  have hend : (front.flatMap Segment.text).length + 1 + before.length <
      (Front.mk front (some (Bracket.square, body))).text.length := by
    rw [length_text rfl, hfront]
    omega
  have hc : p[(front.flatMap Segment.text).length + 1 + before.length]? = some c := by
    have hindex : (front.flatMap Segment.text).length + 1 + before.length -
        (front.flatMap Segment.text).length - 1 = before.length := by omega
    rw [hp, getElem?_text_append hstart hend, hindex, ← hbody]
    simp
  refine ⟨⟨⟨⟨_, body, rest, rfl, hp, hstart, hend⟩, c, hc, hfirst.not_mem⟩, ?_⟩, hc⟩
  rintro i ⟨⟨⟨front', group'⟩, body', rest', hgroup', hp', hstart', hend'⟩, c', hc', hstray⟩
  by_contra hlt
  obtain rfl : group' = some (.square, body') := hgroup'
  have hfront' : (front'.flatMap Segment.text).length < i := hstart'
  rw [hp', getElem?_text_append hstart' hend'] at hc'
  obtain ⟨back', hback'⟩ := h.exists_append hgroup hp'
  -- before the group and the character in it there are symbols and ellipses only
  have hsame (hf : front' = front) (hb : body' = body) : False := by
    subst hf hb
    rw [← hbody, List.append_assoc, List.getElem?_append_left (by omega)] at hc'
    exact hstray (hfirst.before_mem _ (List.mem_of_getElem? hc'))
  rw [hsegments] at hback'
  rcases List.append_eq_append_iff.mp hback' with ⟨as, rfl, has⟩ | ⟨bs, rfl, hbs⟩
  · cases as with
    | nil =>
      cases has
      exact hsame (List.append_nil front) rfl
    | cons s as =>
      obtain ⟨rfl, -⟩ := List.cons.inj has
      simp only [List.flatMap_append, List.flatMap_cons, List.length_append, Segment.text,
        List.length_cons] at hfront'
      omega
  · cases bs with
    | nil =>
      cases hbs
      exact hsame (List.append_nil front').symm rfl
    | cons s bs =>
      obtain ⟨rfl, -⟩ := List.cons.inj hbs
      have hsymbols := hclean _ (List.mem_append_right _ List.mem_cons_self)
      exact hstray (hsymbols c' (List.mem_of_getElem? hc'))

end Front

/-! ### The fault of a refused pattern -/

namespace PatternFault

/-- The place that a fault points to in a pattern, by the kind of the fault. -/
inductive PointsInto (p : Text) : PatternFault → Prop
  | nested {b : Bracket} {k : Nat} : IsLeast (deadEnds p) k → PointsInto p (.nested b k)
  | unexpected {b : Bracket} {k : Nat} : IsLeast (deadEnds p) k → PointsInto p (.unexpected b k)
  | unclosed {b : Bracket} {k : Nat} :
      deadEnds p = ∅ → LeavesOpen p b k → PointsInto p (.unclosed b k)
  | unsupported {c : Char} {k : Nat} :
      Bracketed p → IsLeast (strays p) k → p[k]? = some c → PointsInto p (.unsupported c (some k))

end PatternFault

/-- **Where a pattern is at fault.** -/
theorem pointsInto_of_normalForm {p : Text} {fault : PatternFault}
    (h : normalForm p = .error fault) : fault.PointsInto p := by
  have hread {fault' : PatternFault} (hp : Part.read p = .error fault') : fault' = fault := by
    rw [normalForm, hp] at h
    exact Except.error.inj h
  obtain ⟨f, hcovers | ⟨c, fault', rest, rfl, hblocks⟩⟩ := Front.exists_front p
  · cases hgroup : f.group with
    | some g =>
      have hopen : LeavesOpen p g.1 f.start := ⟨f, g.2, hgroup, rfl, hcovers⟩
      obtain rfl := hread hopen.read
      exact .unclosed hcovers.deadEnds_eq hopen
    | none =>
      obtain ⟨tail, htail, hparts⟩ := Front.read_of_covers hcovers hgroup
      have htexts : ∃ texts, tail.mapM Part.normalize = .ok texts := by
        rcases htail with rfl | rfl
        · exact ⟨_, rfl⟩
        · exact ⟨_, rfl⟩
      rw [normalForm, hparts] at h
      change (Segment.parts 0 f.segments ++ tail).mapM Part.normalize >>= _ = _ at h
      rcases Except.bind_eq_error_iff.mp h with hmap | ⟨texts, -, hpure⟩
      · obtain ⟨front, body, back, before, c, hsegments, hclean, hfirst, rfl⟩ :=
          Segment.fault_of_mapM htexts hmap
        obtain ⟨hleast, hc⟩ := hcovers.isLeast_strays hgroup hsegments hclean hfirst
        rw [Nat.zero_add]
        exact .unsupported ⟨f, hgroup, hcovers⟩ hleast hc
      · cases hpure
  · obtain rfl := hread (hblocks.read rest)
    have hleast := hblocks.isLeast_deadEnds rest
    cases hblocks with
    | nested b hg => exact .nested hleast
    | unexpected b hg => exact .unexpected hleast

theorem Bracketed.deadEnds_eq {p : Text} (h : Bracketed p) : deadEnds p = ∅ := by
  obtain ⟨f, -, hcovers⟩ := h
  exact hcovers.deadEnds_eq

theorem deadEnds_eq_empty_iff {p : Text} :
    deadEnds p = ∅ ↔ ∀ j < p.length, ∃ rest, Bracketed (p.take (j + 1) ++ rest) := by
  rw [Set.eq_empty_iff_forall_notMem]
  simp only [deadEnds, Hopeless, Set.mem_ofPred_eq, not_and, not_forall, not_not]

namespace LeavesOpen

variable {p : Text} {b b' : Bracket} {k k' : Nat}

theorem lt_length (h : LeavesOpen p b k) : k < p.length := by
  obtain ⟨f, body, hgroup, rfl, hcovers⟩ := h
  have hlength := Front.length_text hgroup
  rcases hcovers with rfl | rfl
  · omega
  · rw [List.length_append]
    omega

theorem not_bracketed (h : LeavesOpen p b k) : ¬ Bracketed p := by
  intro hp
  obtain ⟨parts, hparts⟩ := hp.read
  cases hparts.symm.trans h.read

/-- A pattern ends in one group at most. -/
theorem unique (h : LeavesOpen p b k) (h' : LeavesOpen p b' k') : b = b' ∧ k = k' := by
  cases h.read.symm.trans h'.read
  exact ⟨rfl, rfl⟩

end LeavesOpen

/-! ### A fault that points into a pattern -/

namespace PatternFault.PointsInto

variable {p : Text} {fault : PatternFault} {b : Bracket} {c : Char} {k : Nat}

theorem exists_position (h : fault.PointsInto p) : ∃ k < p.length, fault.position = some k := by
  cases h with
  | nested hk => exact ⟨_, hk.1.1, rfl⟩
  | unexpected hk => exact ⟨_, hk.1.1, rfl⟩
  | unclosed _ hb => exact ⟨_, hb.lt_length, rfl⟩
  | unsupported _ _ hc => exact ⟨_, (List.getElem?_eq_some_iff.mp hc).1, rfl⟩

/-- The fault is a misplaced bracket just if there is a dead end, of which it is the first. -/
theorem misplaced_iff (h : fault.PointsInto p) :
    (∃ b, fault = .nested b k ∨ fault = .unexpected b k) ↔ IsLeast (deadEnds p) k := by
  constructor
  · rintro ⟨b, rfl | rfl⟩
    · cases h with
      | nested hk => exact hk
    · cases h with
      | unexpected hk => exact hk
  · intro hk
    have hmem := hk.1
    cases h with
    | @nested b j hj => exact ⟨b, Or.inl (by rw [hj.unique hk])⟩
    | @unexpected b j hj => exact ⟨b, Or.inr (by rw [hj.unique hk])⟩
    | unclosed hempty _ => rw [hempty] at hmem; cases hmem
    | unsupported hp _ _ => rw [hp.deadEnds_eq] at hmem; cases hmem

/-- The fault is a group that is not closed just if there is no dead end but such a group. -/
theorem unclosed_iff (h : fault.PointsInto p) :
    fault = .unclosed b k ↔ deadEnds p = ∅ ∧ LeavesOpen p b k := by
  constructor
  · rintro rfl
    cases h with
    | unclosed hempty hb => exact ⟨hempty, hb⟩
  · rintro ⟨hempty, hb⟩
    cases h with
    | nested hk => rw [hempty] at hk; cases hk.1
    | unexpected hk => rw [hempty] at hk; cases hk.1
    | unclosed _ hb' =>
      obtain ⟨rfl, rfl⟩ := hb.unique hb'
      rfl
    | unsupported hp _ _ => exact absurd hp hb.not_bracketed

/-- The fault is an unsupported character just if all brackets are in order. -/
theorem unsupported_iff (h : fault.PointsInto p) :
    fault = .unsupported c (some k) ↔
      Bracketed p ∧ IsLeast (strays p) k ∧ p[k]? = some c := by
  constructor
  · rintro rfl
    cases h with
    | unsupported hp hk hc => exact ⟨hp, hk, hc⟩
  · rintro ⟨hp, hk, hc⟩
    cases h with
    | nested hj => rw [hp.deadEnds_eq] at hj; cases hj.1
    | unexpected hj => rw [hp.deadEnds_eq] at hj; cases hj.1
    | unclosed _ hb => exact absurd hp hb.not_bracketed
    | unsupported _ hj hd =>
      obtain rfl := hj.unique hk
      rw [hc] at hd
      rw [Option.some.inj hd]

end PatternFault.PointsInto

/-- **Where a refused pattern is at fault.** The error tells the pattern and a position in it. It is
about a misplaced bracket just if the position is the first dead end: the first one such that no
pattern that begins as far as there, the character there included, has its brackets in order. It is
about a group that is not closed, and tells where the group opens, just if there is no dead end and
the pattern ends in that group. It is about an unsupported character just if all brackets are in
order, and tells the first character in a value group that is no symbol and no ellipsis. -/
theorem normalize_fault_position {p : Text} {e : FormatError} (h : normalize p = .error e) :
    e.pattern = p ∧ (∃ k < p.length, e.position = some k) ∧
    (∀ k, (∃ b, e.fault = .nested b k ∨ e.fault = .unexpected b k) ↔
      IsLeast {k | k < p.length ∧ ∀ rest, ¬ Bracketed (p.take (k + 1) ++ rest)} k) ∧
    (∀ b k, e.fault = .unclosed b k ↔
      (∀ j < p.length, ∃ rest, Bracketed (p.take (j + 1) ++ rest)) ∧ LeavesOpen p b k) ∧
    ∀ c k, e.fault = .unsupported c (some k) ↔
      Bracketed p ∧
        IsLeast {k | InValueGroup p k ∧ ∃ c, p[k]? = some c ∧ c ∉ Grammar.symbols} k ∧
        p[k]? = some c := by
  obtain ⟨fault, hfault, rfl⟩ := Except.mapError_eq_error_iff.mp h
  have hpoints := pointsInto_of_normalForm hfault
  refine ⟨rfl, hpoints.exists_position, fun k => hpoints.misplaced_iff, fun b k => ?_,
    fun c k => hpoints.unsupported_iff⟩
  rw [← deadEnds_eq_empty_iff]
  exact hpoints.unclosed_iff

/-- A bracket in a group, with an open group behind it; a group whose closing bracket is escaped;
and two groups with letters that are no symbols, behind an escaped bracket. -/
theorem normalize_fault_position_mixed :
    normalize ['[', '0', '[', '9'] = .error ⟨['[', '0', '[', '9'], .nested .square 2⟩ ∧
    IsLeast {k | k < 4 ∧ ∀ rest, ¬ Bracketed (['[', '0', '[', '9'].take (k + 1) ++ rest)} 2 ∧
    normalize ['-', '\x7b', '\\', '\x7d'] =
      .error ⟨['-', '\x7b', '\\', '\x7d'], .unclosed .curly 1⟩ ∧
    LeavesOpen ['-', '\x7b', '\\', '\x7d'] .curly 1 ∧
    normalize ['\\', '[', '[', '0', 'X', ']', '[', 'Y', ']'] =
      .error ⟨['\\', '[', '[', '0', 'X', ']', '[', 'Y', ']'], .unsupported 'X' (some 4)⟩ ∧
    Bracketed ['\\', '[', '[', '0', 'X', ']', '[', 'Y', ']'] ∧
    IsLeast {k | InValueGroup ['\\', '[', '[', '0', 'X', ']', '[', 'Y', ']'] k ∧
      ∃ c, ['\\', '[', '[', '0', 'X', ']', '[', 'Y', ']'][k]? = some c ∧
        c ∉ Grammar.symbols} 4 := by
  have hnested : normalize ['[', '0', '[', '9'] =
      .error ⟨['[', '0', '[', '9'], .nested .square 2⟩ := rfl
  have hopen : normalize ['-', '\x7b', '\\', '\x7d'] =
      .error ⟨['-', '\x7b', '\\', '\x7d'], .unclosed .curly 1⟩ := rfl
  have hstray : normalize ['\\', '[', '[', '0', 'X', ']', '[', 'Y', ']'] =
      .error ⟨['\\', '[', '[', '0', 'X', ']', '[', 'Y', ']'], .unsupported 'X' (some 4)⟩ := rfl
  obtain ⟨-, -, hdead, -⟩ := normalize_fault_position hnested
  obtain ⟨-, -, -, hunclosed, -⟩ := normalize_fault_position hopen
  obtain ⟨-, -, -, -, hunsupported⟩ := normalize_fault_position hstray
  obtain ⟨hbracketed, hleast, -⟩ := (hunsupported 'X' 4).mp rfl
  exact ⟨hnested, (hdead 2).mp ⟨.square, Or.inl rfl⟩, hopen, ((hunclosed .curly 1).mp rfl).2,
    hstray, hbracketed, hleast⟩

end TextMask
