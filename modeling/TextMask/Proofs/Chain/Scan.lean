import TextMask.Proofs.Chain.Canonical
import TextMask.Proofs.Chain.Meaning
import TextMask.Proofs.Pattern.Refusal

/-!
# Scanning normal forms

A pattern that is scanned as it stands can hold an ellipsis that repeats nothing, or a character in a
value group that is no symbol, and it can end inside a group. None of this happens to a normal form.
So a format is refused for the fault of its normal form and for no other.

* `Context.behind`: the context behind a glyph;
* `Chain.scan_stop`: a scan stops at an ellipsis, or in the context of the last bracket;
* `Outline.foldl_behind`: behind a pattern with an outline no group is open;
* `compile_fails_as_normalize`: compiling a format fails as normalizing it does, and never later.
-/

namespace TextMask

/-! ### Where a scan stops -/

/-- The context behind a glyph: brackets change it. -/
def Context.behind (context : Context) : Glyph → Context
  | .plain c => (Context.ofBracket? c).getD context
  | _ => context

theorem Cursor.context_next {cur next : Cursor} {g : Glyph} {slot : Option Slot}
    (h : cur.read g = .ok (slot, next)) : next.context = cur.context.behind g := by
  cases g with
  | plain c =>
    rw [read] at h
    rw [Context.behind]
    split at h
    next context hc =>
      obtain ⟨-, rfl⟩ := Prod.mk.inj (Except.ok.inj h)
      rw [hc]
      rfl
    next hc =>
      obtain ⟨s, -, -, rfl⟩ := of_write h
      rw [hc]
      rfl
  | escaped c =>
    obtain ⟨s, -, -, rfl⟩ := of_write h
    rfl
  | dangling =>
    obtain ⟨-, rfl⟩ := Prod.mk.inj (Except.ok.inj h)
    rfl

/-- **Where a scan stops**: at an ellipsis of some class, or in the context of the last bracket. -/
theorem Chain.scan_stop {p : Text} {r : Scanned} (h : scan .start p = .ok r) :
    (∃ k, r.stop = .ellipsis (.ellipsis k)) ∨
      ∃ previous, r.stop =
        .finished ⟨(Glyph.read p).foldl Context.behind .free, previous⟩ := by
  cases hr : r.stop with
  | ellipsis s =>
    obtain ⟨he, cur, c, next, hstep⟩ := exists_step_of_stop h hr
    rcases Cursor.of_step hstep with ⟨hnone, -⟩ | ⟨s', previous, hs', hs, -⟩
    · cases hnone
    · obtain rfl := Option.some.inj hs'
      obtain ⟨-, k, rfl, -⟩ := Context.of_elliptical hs he
      exact Or.inl ⟨k, rfl⟩
  | finished last =>
    rw [scan_eq_scanWith_read rfl] at h
    have hcontext := scanWith_finished (φ := Cursor.context) (f := Context.behind)
      Cursor.context_next h hr
    refine Or.inr ⟨last.previous, congrArg ScanStop.finished ?_⟩
    exact congrArg (Cursor.mk · last.previous) hcontext

/-! ### No group is open behind an outline -/

theorem Context.behind_of_inert {g : Glyph} (h : g.Inert) (context : Context) :
    context.behind g = context := by
  cases g with
  | plain c => rw [behind, ofBracket?_eq_none h]; rfl
  | escaped c => rfl
  | dangling => rfl

theorem Context.foldl_behind {gs : List Glyph} (h : ∀ g ∈ gs, g.Inert) (context : Context) :
    gs.foldl behind context = context := by
  induction gs with
  | nil => rfl
  | cons g gs ih =>
    obtain ⟨hg, hgs⟩ := List.forall_mem_cons.mp h
    rw [List.foldl_cons, behind_of_inert hg, ih hgs]

/-- A group leaves nothing open. -/
theorem Bracket.foldl_behind_around (b : Bracket) (body : List Glyph) (context : Context) :
    (b.around body).foldl Context.behind context = .free := by
  rw [around, List.foldl_cons, List.foldl_append]
  cases b <;> rfl

theorem Item.foldl_behind (i : Item) : i.glyphs.foldl Context.behind .free = .free := by
  cases i with
  | free l => exact Context.behind_of_inert l.glyph_inert .free
  | fixed ls => exact Bracket.foldl_behind_around .curly _ _
  | value g => exact Bracket.foldl_behind_around .square _ _

/-- Behind a pattern with an outline no group is open. -/
theorem Outline.foldl_behind (o : Outline) : o.glyphs.foldl Context.behind .free = .free := by
  obtain ⟨items, dangling⟩ := o
  induction items with
  | nil => cases dangling <;> rfl
  | cons i items ih =>
    rw [glyphs, List.flatMap_cons, List.append_assoc, List.foldl_append, i.foldl_behind]
    exact ih

/-! ### Formats are refused by normalizing only -/

namespace Chain

/-- **Normal forms are scanned without a fault.** The scan of a normal form stops at an ellipsis, or
outside of any group behind the last character, and the format compiles to what it has found. -/
theorem exists_scan_of_normalize {format normal : Text} (h : normalize format = .ok normal) :
    ∃ r, scan .start normal = .ok r ∧
      ((∃ k, r.stop = .ellipsis (.ellipsis k)) ∨
        ∃ previous, r.stop = .finished ⟨.free, previous⟩) ∧
      compile format = .ok r.chain := by
  have hform := Except.mapError_eq_ok_iff.mp h
  obtain ⟨o, rfl⟩ := Outline.exists_of_normalForm hform
  obtain rfl : o.normal.text = normal := Except.ok.inj (o.normalForm_text.symm.trans hform)
  have hcompile := o.compile_text
  obtain ⟨normal, r, hnormal, hscan, hchain⟩ := Chain.compile_eq_ok_iff.mp hcompile
  obtain rfl := Except.ok.inj (hnormal.symm.trans h)
  refine ⟨r, hscan, ?_, hcompile.trans (congrArg Except.ok hchain.symm)⟩
  have hstop := scan_stop hscan
  rwa [Glyph.read_outline, o.normal.foldl_behind] at hstop

end Chain

/-- **Compiling fails as normalizing does.** A format is refused if it has no normal form, with the
same error, which has a position. The scan of a normal form, character by character, finds no
unsupported symbol and no ellipsis that repeats nothing, and ends outside of any group unless an
ellipsis stops it. -/
theorem compile_fails_as_normalize (format : Text) :
    (∀ e, Chain.compile format = .error e ↔ normalize format = .error e) ∧
    (∀ normal, normalize format = .ok normal →
      ∃ r, Chain.scan .start normal = .ok r ∧
        ((∃ k, r.stop = .ellipsis (.ellipsis k)) ∨
          ∃ previous, r.stop = .finished ⟨.free, previous⟩) ∧
        Chain.compile format = .ok r.chain) ∧
    ∀ e, Chain.compile format = .error e → e.pattern = format ∧ ∃ k, e.position = some k := by
  have hsame : ∀ e, Chain.compile format = .error e ↔ normalize format = .error e := by
    intro e
    rw [Chain.compile, Except.bind_eq_error_iff]
    refine or_iff_left ?_
    rintro ⟨normal, hnormal, hread⟩
    obtain ⟨r, -, -, hcompile⟩ := Chain.exists_scan_of_normalize hnormal
    rw [Chain.compile, hnormal] at hcompile
    cases hread.symm.trans hcompile
  exact ⟨hsame, fun _ h => Chain.exists_scan_of_normalize h,
    fun e he => exists_position_of_normalize ((hsame e).mp he)⟩

/-- A format that an ellipsis cuts short, behind an escaped escape mark in a fixed group, and one with
a letter where a symbol has to stand. -/
theorem compile_fails_as_normalize_mixed :
    (∃ r, Chain.scan .start ['[', '0', '9', ']', '\x7b', '\\', '\\', '\x7d', '[', 'A', '…', ']',
        '-'] = .ok r ∧
      ((∃ k, r.stop = .ellipsis (.ellipsis k)) ∨
        ∃ previous, r.stop = .finished ⟨.free, previous⟩) ∧
      Chain.compile ['[', '9', '0', ']', '\x7b', '\\', '\\', '\x7d', '[', 'A', '…', ']', '-'] =
        .ok r.chain) ∧
    Chain.compile ['-', '[', '0', 'x', ']'] =
      .error ⟨['-', '[', '0', 'x', ']'], .unsupported 'x' (some 3)⟩ ∧
    ∃ k, (⟨['-', '[', '0', 'x', ']'], .unsupported 'x' (some 3)⟩ : FormatError).position
      = some k := by
  obtain ⟨-, hscan, -⟩ := compile_fails_as_normalize
    ['[', '9', '0', ']', '\x7b', '\\', '\\', '\x7d', '[', 'A', '…', ']', '-']
  obtain ⟨hsame, -, hposition⟩ := compile_fails_as_normalize ['-', '[', '0', 'x', ']']
  have hfails : Chain.compile ['-', '[', '0', 'x', ']'] =
      .error ⟨['-', '[', '0', 'x', ']'], .unsupported 'x' (some 3)⟩ := (hsame _).mpr rfl
  exact ⟨hscan _ rfl, hfails, (hposition _ hfails).2⟩

end TextMask
