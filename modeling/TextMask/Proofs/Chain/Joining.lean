import Mathlib.Data.List.TakeWhile
import TextMask.Chain.Summary
import TextMask.Proofs.Chain.Scan
import TextMask.Proofs.Pattern.Joining

/-!
# Formats behind one another

The chain of two formats, one behind the other, is made of their two chains: the second one takes
the place of the end of the line of the first one. If the first one has no such end, since an
ellipsis closes it, the second one is of no account. The scan of the first normal form ends outside of
groups, and in front of a character that is not escaped, even if the last one is an escape mark: that
one is escaped itself, and so it is forgotten.

* `Chain.Canonical.ends`: a chain is closed by an ellipsis, or by the end of the line;
* `Chain.placeholder_append`, `Chain.count_append`: what can be told about a joined chain;
* `Cursor.escapes_finished`: what is left of the escape marks at the end of a pattern;
* `Chain.exists_scan_of_endsPaired`: where the scan of the first normal form ends;
* `Chain.scan_append`: the chain of two patterns, one behind the other;
* `normalize_compile_append`: normal forms, faults and chains of joined formats.
-/

namespace TextMask

/-! ### Joined chains -/

namespace Chain

variable {chain : Chain}

/-- A chain is closed by an ellipsis, or by the end of the line behind slots that are none. -/
theorem Canonical.ends (h : Canonical chain) :
    (∃ k, chain.getLast? = some (.ellipsis k)) ∨
      chain = chain.slots ++ [.endOfLine] ∧ ∀ s ∈ chain.slots, s.elliptical = false := by
  obtain ⟨body, last, rfl, hbody, rfl | ⟨k, rfl, -⟩⟩ := h
  · have hslots : slots (body ++ [.endOfLine]) = body := by
      rw [slots, List.takeWhile_append_of_pos fun s hs => (hbody s hs).kind_ne_endOfLine]
      exact List.append_nil body
    rw [hslots]
    exact Or.inr ⟨rfl, fun s hs => (hbody s hs).1⟩
  · exact Or.inl ⟨k, List.getLast?_concat⟩

/-! ### What can be told about a joined chain -/

theorem slots_append (chain chain' : Chain) :
    slots (chain.slots ++ chain') = chain.slots ++ chain'.slots :=
  List.takeWhile_append_of_pos fun _ hs =>
    List.mem_takeWhile_imp (p := fun s : Slot => s.kind != .endOfLine) hs

/-- Slots are counted one after the other. -/
theorem count_append (kinds : List SlotKind) (chain chain' : Chain) :
    count kinds (chain.slots ++ chain') = count kinds chain + count kinds chain' := by
  rw [count, slots_append, List.countP_append]
  rfl

/-- Placeholders are joined if no ellipsis stops the first one. -/
theorem placeholder_append (h : ∀ s ∈ chain.slots, s.elliptical = false) (chain' : Chain) :
    placeholder (chain.slots ++ chain') = placeholder chain ++ placeholder chain' := by
  have hshown : ∀ s ∈ chain.slots, (!s.elliptical) = true := by
    intro s hs
    rw [h s hs]
    rfl
  have hall := List.takeWhile_eq_self_iff.mpr hshown
  rw [placeholder, slots_append, List.takeWhile_append_of_pos hshown, List.flatMap_append,
    placeholder, hall]
  rfl

end Chain

/-! ### The seam -/

/-- The last character of a pattern escapes what follows it just if the escape marks at the end of the
pattern are no pairs. -/
theorem foldl_escapes_eq_false_iff (p : Text) :
    p.foldl (fun e c => !e && c == escapeMark) false = false ↔ EndsPaired p := by
  induction p using List.reverseRecOn with
  | nil => exact iff_of_true rfl ⟨0, rfl⟩
  | append_singleton p c ih =>
    rw [List.foldl_append, List.foldl_cons, List.foldl_nil, EndsPaired]
    by_cases hc : c = escapeMark
    · rw [hc, beq_self_eq_true, Bool.and_true, escapesAtEnd_append_escapeMark, Nat.even_add_one,
        ← EndsPaired, ← ih, Bool.not_eq_false', Bool.not_eq_false]
    · rw [beq_eq_false_iff_ne.mpr hc, Bool.and_false, escapesAtEnd_append_of_ne hc]
      exact iff_of_true rfl ⟨0, rfl⟩

/-- **Escape marks at the end of a pattern.** A scan that has finished escapes nothing that follows
just if the escape marks at the end of the pattern are pairs, though the last character is one. -/
theorem Cursor.escapes_finished {p : Text} {r : Scanned} {last : Cursor}
    (h : Chain.scan .start p = .ok r) (hr : r.stop = .finished last) :
    last.escapes = false ↔ EndsPaired p := by
  have hlast := scanWith_finished (φ := Cursor.escapes)
    (f := fun e c => !e && c == escapeMark) Cursor.escapes_next h hr
  rw [hlast]
  exact foldl_escapes_eq_false_iff p

namespace Chain

variable {p q normal : Text} {found found' : Scanned}

/-- **The seam.** Behind the normal form of a format that ends in pairs of escape marks, a scan stands
as it does in front of a pattern: outside of groups, and with nothing escaped. -/
theorem exists_scan_of_endsPaired (h : normalize p = .ok normal) (hp : EndsPaired p) :
    ∃ found, scan .start normal = .ok found ∧
      ((∃ k, found.stop = .ellipsis (.ellipsis k)) ∨
        ∃ previous, found.stop = .finished ⟨.free, previous⟩ ∧ previous ≠ some escapeMark) ∧
      compile p = .ok found.chain := by
  obtain ⟨found, hscan, hstop, hcompile⟩ := exists_scan_of_normalize h
  refine ⟨found, hscan, ?_, hcompile⟩
  rcases hstop with hellipsis | ⟨previous, hfinished⟩
  · exact Or.inl hellipsis
  · have hform := Except.mapError_eq_ok_iff.mp h
    obtain ⟨o, rfl⟩ := Outline.exists_of_normalForm hform
    obtain rfl := Except.ok.inj (o.normalForm_text.symm.trans hform)
    have hdangling : o.dangling = false := Outline.dangling_eq_false hp
    have hnormal := Outline.endsPaired_text (o := o.normal) hdangling
    have hclear := (Cursor.escapes_finished hscan hfinished).mpr hnormal
    exact Or.inr ⟨previous, hfinished, beq_eq_false_iff_ne.mp hclear⟩

/-- **The chain of joined patterns.** An ellipsis closes the first chain and the whole, or the second
chain takes the place of the end of the line. -/
theorem scan_append (h : scan .start p = .ok found)
    (hstop : (∃ k, found.stop = .ellipsis (.ellipsis k)) ∨
      ∃ previous, found.stop = .finished ⟨.free, previous⟩ ∧ previous ≠ some escapeMark)
    (hq : scan .start q = .ok found') :
    (∃ k, found.chain.getLast? = some (.ellipsis k)) ∧ scan .start (p ++ q) = .ok found ∨
      found.chain = found.chain.slots ++ [.endOfLine] ∧
        (∀ s ∈ found.chain.slots, s.elliptical = false) ∧
        ∃ joined, scan .start (p ++ q) = .ok joined ∧
          joined.chain = found.chain.slots ++ found'.chain := by
  have hresumed := scanWith_append h q
  have hlast : found.chain.getLast? = some found.stop.slot := List.getLast?_concat
  rcases hstop with ⟨k, hk⟩ | ⟨previous, hfinished, hprevious⟩
  · rw [hk] at hresumed hlast
    exact Or.inl ⟨⟨k, hlast⟩, hresumed⟩
  · rw [hfinished] at hresumed hlast
    have hclear : (Cursor.mk .free previous).escapes = false := beq_eq_false_iff_ne.mpr hprevious
    have hsame := scan_behind_free hclear q
    rw [hq] at hsame
    obtain ⟨behind, hbehind, hchain⟩ := Except.map_eq_ok_iff.mp hsame
    rcases (linked_of_scan h).canonical.ends with ⟨k, hk⟩ | ⟨hend, he⟩
    · cases hlast.symm.trans hk
    · have hslots : found.slots = found.chain.slots := (List.append_inj' hend rfl).1
      have happended : scan .start (p ++ q) = .ok ⟨found.slots ++ behind.slots, behind.stop⟩ :=
        hresumed.trans (congrArg (_ <$> ·) hbehind)
      refine Or.inr ⟨hend, he, _, happended, ?_⟩
      rw [← hslots, ← hchain]
      exact List.append_assoc _ _ _

end Chain

/-! ### Joined formats -/

/-- **Formats behind one another.** If a format does not end in an escape mark that escapes nothing,
any pattern can be put behind it. The whole has a normal form just if the pattern has one, and it is
the normal form of the format with that of the pattern behind it; a fault of the pattern is the
fault of the whole, at its place there. The scan of the normal form of the format stops at an ellipsis,
or outside of groups and in front of a character that is not escaped. If the pattern has a normal form,
all three have chains: if an ellipsis closes the chain of the format, it is the chain of the whole, and
otherwise the chain of the pattern takes the place of the end of the line, so that placeholders are
joined and lengths are added. -/
theorem normalize_compile_append {p normal : Text} (h : normalize p = .ok normal)
    (hp : EndsPaired p) (q : Text) :
    (∀ r, normalize (p ++ q) = .ok r ↔ ∃ r', normalize q = .ok r' ∧ normal ++ r' = r) ∧
    (∀ e, normalize q = .error e → ∃ e', normalize (p ++ q) = .error e' ∧ e'.pattern = p ++ q ∧
      e'.fault = e.fault.shift p.length ∧ e'.position = e.position.map (p.length + ·)) ∧
    (∃ found, Chain.scan .start normal = .ok found ∧
      ((∃ k, found.stop = .ellipsis (.ellipsis k)) ∨
        ∃ previous, found.stop = .finished ⟨.free, previous⟩ ∧ previous ≠ some escapeMark)) ∧
    ∃ chain, Chain.compile p = .ok chain ∧
      ∀ r', normalize q = .ok r' →
        ∃ chain' joined, Chain.compile q = .ok chain' ∧ Chain.compile (p ++ q) = .ok joined ∧
          ((∃ k, chain.getLast? = some (.ellipsis k)) → joined = chain) ∧
          ((∀ k, chain.getLast? ≠ some (.ellipsis k)) →
            joined = chain.slots ++ chain' ∧
            joined.placeholder = chain.placeholder ++ chain'.placeholder ∧
            joined.minTextLength = chain.minTextLength + chain'.minTextLength ∧
            joined.maxTextLength = chain.maxTextLength + chain'.maxTextLength ∧
            joined.minValueLength = chain.minValueLength + chain'.minValueLength ∧
            joined.maxValueLength = chain.maxValueLength + chain'.maxValueLength) := by
  obtain ⟨found, hscan, hstop, hchain⟩ := Chain.exists_scan_of_endsPaired h hp
  have hform := Except.mapError_eq_ok_iff.mp h
  obtain ⟨o, rfl⟩ := Outline.exists_of_normalForm hform
  obtain rfl := Except.ok.inj (o.normalForm_text.symm.trans hform)
  have happend := Outline.normalForm_append (Outline.dangling_eq_false hp) q
  have hok : ∀ r, normalize (o.text ++ q) = .ok r ↔
      ∃ r', normalize q = .ok r' ∧ o.normal.text ++ r' = r := by
    intro r
    rw [normalize, normalize, happend, Except.mapError_eq_ok_iff, Except.mapError_eq_ok_iff,
      Except.map_eq_ok_iff]
    simp only [Except.mapError_eq_ok_iff]
  refine ⟨hok, fun e he => ?_, ⟨found, hscan, hstop⟩, found.chain, hchain, fun r' hnormal => ?_⟩
  · obtain ⟨fault, hfault, rfl⟩ := Except.mapError_eq_error_iff.mp he
    refine ⟨⟨o.text ++ q, fault.shift o.text.length⟩, ?_, rfl, rfl, fault.position_shift _⟩
    rw [normalize, happend, hfault]
    rfl
  · have hjoined := (hok _).mpr ⟨r', hnormal, rfl⟩
    obtain ⟨found', hscan', -, hchain'⟩ := Chain.exists_scan_of_normalize hnormal
    rcases Chain.scan_append hscan hstop hscan' with
      ⟨⟨k, hk⟩, happended⟩ | ⟨hend, he, joined, happended, hslots⟩
    · have hcompile := Chain.compile_eq_ok_iff.mpr ⟨_, found, hjoined, happended, rfl⟩
      exact ⟨_, _, hchain', hcompile, fun _ => rfl, fun hnone => absurd hk (hnone k)⟩
    · have hcompile := Chain.compile_eq_ok_iff.mpr ⟨_, joined, hjoined, happended, hslots⟩
      refine ⟨_, _, hchain', hcompile, fun ⟨k, hk⟩ => ?_, fun _ => ?_⟩
      · rw [hend, List.getLast?_concat] at hk
        cases hk
      · exact ⟨rfl, Chain.placeholder_append he _, Chain.count_append _ _ _,
          Chain.count_append _ _ _, Chain.count_append _ _ _, Chain.count_append _ _ _⟩

/-- A format that ends in an escaped escape mark, in front of one with a literal; the same in front
of one with a fault; and a format that an ellipsis closes. -/
theorem normalize_compile_append_mixed :
    normalize ['[', '0', ']', '\\', '\\'] = .ok ['[', '0', ']', '\\', '\\'] ∧
    EndsPaired ['[', '0', ']', '\\', '\\'] ∧
    normalize ['[', '0', ']', '\\', '\\', '[', '9', 'a', ']'] =
      .ok ['[', '0', ']', '\\', '\\', '[', '9', ']', '[', 'a', ']'] ∧
    (∃ e', normalize ['[', '0', ']', '\\', '\\', '-', '[', 'x', ']'] = .error e' ∧
      e'.position = some 7) ∧
    (∃ joined, Chain.compile ['[', '0', ']', '\\', '\\', '[', '9', 'a', ']'] = .ok joined ∧
      joined = [.value .numeric, .free '\\', .optional .numeric, .optional .letter, .endOfLine] ∧
      joined.minTextLength = 2 + 0) ∧
    ∃ joined, Chain.compile ['[', '0', '…', ']', '-'] = .ok joined ∧
      joined = [.value .numeric, .ellipsis .numeric] := by
  have hpaired : EndsPaired ['[', '0', ']', '\\', '\\'] := by decide
  have hnormal : normalize ['[', '0', ']', '\\', '\\'] =
      .ok ['[', '0', ']', '\\', '\\'] := rfl
  obtain ⟨hok, -, ⟨found, hscan, hstop⟩, chain, hchain, hjoined⟩ :=
    normalize_compile_append hnormal hpaired ['[', '9', 'a', ']']
  obtain ⟨-, herror, -⟩ := normalize_compile_append hnormal hpaired ['-', '[', 'x', ']']
  have hellipsis : normalize ['[', '0', '…', ']'] = .ok ['[', '0', '…', ']'] := rfl
  obtain ⟨-, -, -, closed, hchain', hclosed⟩ :=
    normalize_compile_append hellipsis (by decide) ['-']
  obtain rfl := Except.ok.inj hchain
  obtain rfl := Except.ok.inj hchain'
  obtain ⟨e', he', -, -, hposition⟩ := herror ⟨_, .unsupported 'x' (some 2)⟩ rfl
  obtain ⟨chain', joined, hsecond, hcompile, -, hboth⟩ := hjoined _ rfl
  obtain ⟨_, joined', -, hcompile', hfirst, -⟩ := hclosed _ rfl
  obtain rfl := Except.ok.inj hsecond
  obtain ⟨hslots, -, hlength, -⟩ := hboth fun k hk => by cases hk
  exact ⟨hnormal, hpaired, (hok _).mpr ⟨_, rfl, rfl⟩, ⟨e', he', hposition⟩,
    ⟨joined, hcompile, hslots, hlength⟩, joined', hcompile', hfirst ⟨.numeric, rfl⟩⟩

end TextMask
