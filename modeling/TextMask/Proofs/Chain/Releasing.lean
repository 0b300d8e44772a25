import TextMask.Chain.Summary
import TextMask.Proofs.Chain.Scan
import TextMask.Proofs.Chain.Trace
import TextMask.Proofs.Pattern.Braces

/-!
# Released chains

A fixed slot is released when it becomes a free one with the same literal. A chain whose fixed slots
are all released is that of the pattern without curly brackets, looks and measures the same, and does
the same with every character: only what is extracted differs.

* `Slot.release`: the slot that a fixed slot becomes;
* `placeholder_release`, `count_release`: what can be told about a released chain;
* `Cursor.Releases`: where a scan stands in a pattern with curly brackets and without them;
* `scanWith_release`: the two scans, step by step;
* `Chain.scan_withoutBraces`: the scans of a normal form with curly brackets and without them;
* `Offer.release_drop`, `Offer.release`: what a released chain does with a character.
-/

namespace TextMask

/-! ### Released slots -/

namespace Slot

/-- The slot, if it is not fixed, or else the free slot with the same literal. -/
def release (s : Slot) : Slot := { s with kind := if s.kind = .fixed then .free else s.kind }

@[simp] theorem elliptical_release (s : Slot) : s.release.elliptical = s.elliptical := rfl

@[simp] theorem filler_release (s : Slot) : s.release.filler = s.filler := rfl

@[simp] theorem isLiteral_release (s : Slot) : s.release.isLiteral = s.isLiteral := by
  obtain ⟨kind, _, _, _⟩ := s
  cases kind <;> rfl

@[simp] theorem isMandatory_release (s : Slot) : s.release.isMandatory = s.isMandatory := by
  obtain ⟨kind, _, _, _⟩ := s
  cases kind <;> rfl

/-- A slot that is released ends a chain only if it did before. -/
theorem endOfLine_release (s : Slot) :
    (s.release.kind != .endOfLine) = (s.kind != .endOfLine) := by
  obtain ⟨kind, _, _, _⟩ := s
  cases kind <;> rfl

/-- What is released stays one of the kinds that count fixed and free slots alike. -/
theorem contains_release {kinds : List SlotKind}
    (h : kinds.contains .fixed = kinds.contains .free) (s : Slot) :
    kinds.contains s.release.kind = kinds.contains s.kind := by
  obtain ⟨kind, _, _, _⟩ := s
  cases kind with
  | fixed => exact h.symm
  | free | value | optional | endOfLine => rfl

end Slot

/-! ### Chains of released outlines -/

namespace Chain

theorem slots_release (chain : Chain) :
    slots (chain.map Slot.release) = chain.slots.map Slot.release := by
  rw [slots, List.takeWhile_map]
  simp only [Function.comp_def, Slot.endOfLine_release]
  rfl

/-- A released chain has the same placeholder. -/
theorem placeholder_release (chain : Chain) :
    placeholder (chain.map Slot.release) = chain.placeholder := by
  rw [placeholder, slots_release, List.takeWhile_map, List.flatMap_map]
  simp only [Function.comp_def, Slot.elliptical_release, Slot.filler_release]
  rfl

/-- A released chain has as many slots of the given kinds, if these count fixed and free slots
alike. -/
theorem count_release {kinds : List SlotKind} (h : kinds.contains .fixed = kinds.contains .free)
    (chain : Chain) : count kinds (chain.map Slot.release) = chain.count kinds := by
  rw [count, slots_release, List.countP_map]
  simp only [Function.comp_def, Slot.elliptical_release, Slot.contains_release h]
  rfl

end Chain

/-! ### Scanning without curly brackets -/

/-- The context that is left of a context when there are no curly brackets. -/
def Context.release : Context → Context
  | .fixed => .free
  | context => context

/-- What a character writes without curly brackets. The character in front of it matters in value
groups only. -/
theorem Context.slot_release {context : Context} {previous previous' : Option Char} {c : Char}
    {s : Slot} (h : context.slot previous c = .ok s)
    (hprevious : context = .value → previous' = previous) :
    context.release.slot previous' c = .ok s.release := by
  cases context with
  | free => exact congrArg (Except.map Slot.release) h
  | fixed => exact congrArg (Except.map Slot.release) h
  | value =>
    rw [hprevious rfl]
    rcases of_slot h with ⟨-, hno⟩ | ⟨-, ⟨k, rfl, -⟩ | ⟨⟨k, b⟩, rfl, -⟩⟩
    · exact absurd rfl hno
    · exact h
    · cases b <;> exact h

/-- Square brackets lead to no context that curly brackets make. -/
theorem Context.release_of_bracket {context : Context} {c : Char}
    (h : ofBracket? c = some context) (hc : (Glyph.plain c).isBrace = false) :
    context.release = context := by
  cases context with
  | free | value => rfl
  | fixed =>
    rw [ofBracket?] at h
    split at h
    · cases h
    next hopens =>
      obtain rfl := Bracket.eq_of_choice (f := Bracket.opening) hopens
      cases hc
    · cases h
    · cases h

/-- Curly brackets are read outside of value groups only. -/
def BracesOutside : Context → List Glyph → Prop
  | _, [] => True
  | context, g :: gs => (g.isBrace = true → context ≠ .value) ∧ BracesOutside (context.behind g) gs

namespace BracesOutside

variable {context : Context} {gs gs' : List Glyph}

theorem append (h : BracesOutside context gs)
    (h' : BracesOutside (gs.foldl Context.behind context) gs') :
    BracesOutside context (gs ++ gs') := by
  induction gs generalizing context with
  | nil => exact h'
  | cons g gs ih => exact ⟨h.1, ih h.2 h'⟩

theorem of_inert (h : ∀ g ∈ gs, g.Inert) : BracesOutside context gs := by
  induction gs generalizing context with
  | nil => exact trivial
  | cons g gs ih =>
    obtain ⟨hg, hgs⟩ := List.forall_mem_cons.mp h
    refine ⟨fun hb => ?_, ih hgs⟩
    rw [Glyph.isBrace_of_inert hg] at hb
    cases hb

/-- Those of an outline are. -/
theorem of_item (i : Item) : BracesOutside .free i.glyphs := by
  cases i with
  | free l => exact of_inert (List.forall_mem_singleton.mpr l.glyph_inert)
  | fixed ls =>
    have hinert : ∀ g ∈ ls.map Literal.glyph, g.Inert :=
      List.forall_mem_map.mpr fun l _ => l.glyph_inert
    refine ⟨nofun, (of_inert hinert).append ?_⟩
    rw [Context.foldl_behind hinert]
    exact ⟨nofun, trivial⟩
  | value g =>
    have hinert : ∀ x ∈ g.entries.map Entry.glyph, x.Inert :=
      List.forall_mem_map.mpr fun e _ => e.glyph_inert
    exact ⟨nofun, (of_inert hinert).append ⟨nofun, trivial⟩⟩

theorem of_outline (o : Outline) : BracesOutside .free o.glyphs := by
  obtain ⟨items, dangling⟩ := o
  induction items with
  | nil =>
    cases dangling with
    | false => exact trivial
    | true => exact ⟨nofun, trivial⟩
  | cons i items ih =>
    rw [Outline.glyphs, List.flatMap_cons, List.append_assoc]
    refine (of_item i).append ?_
    rw [i.foldl_behind]
    exact ih

end BracesOutside

namespace Cursor

variable {cur cur' next : Cursor} {g : Glyph} {slot : Option Slot}

/-- Where a scan stands in a pattern, and where it stands in the pattern without curly brackets. What
is remembered differs behind a curly bracket, but not in a value group. -/
def Releases (cur cur' : Cursor) : Prop :=
  cur'.context = cur.context.release ∧ (cur.context = .value → cur'.previous = cur.previous)

theorem Releases.write {c : Char} {previous : Option Char} (h : Releases cur cur')
    (hw : cur.write c previous = .ok (slot, next)) :
    ∃ next', cur'.write c previous = .ok (slot.map Slot.release, next') ∧ Releases next next' := by
  obtain ⟨s, rfl, hs, rfl⟩ := of_write hw
  have hs' := Context.slot_release hs h.2
  rw [← h.1] at hs'
  exact ⟨_, write_eq hs', h.1, fun _ => rfl⟩

/-- A glyph that is no curly bracket does the same. -/
theorem Releases.read (h : Releases cur cur') (hg : g.isBrace = false)
    (hr : cur.read g = .ok (slot, next)) :
    ∃ next', cur'.read g = .ok (slot.map Slot.release, next') ∧ Releases next next' := by
  cases g with
  | plain c =>
    rw [Cursor.read] at hr ⊢
    split at hr
    next context hc =>
      obtain ⟨rfl, rfl⟩ := Prod.mk.inj (Except.ok.inj hr)
      exact ⟨⟨context, some c⟩, rfl, (Context.release_of_bracket hc hg).symm, fun _ => rfl⟩
    · exact h.write hr
  | escaped c =>
    have hescaped : Releases { cur with previous := some escapeMark }
        { cur' with previous := some escapeMark } := ⟨h.1, fun _ => rfl⟩
    exact hescaped.write hr
  | dangling =>
    obtain ⟨rfl, rfl⟩ := Prod.mk.inj (Except.ok.inj hr)
    exact ⟨_, rfl, h.1, fun _ => rfl⟩

/-- A curly bracket outside of a value group writes nothing, and may as well be missing. -/
theorem Releases.read_brace (h : Releases cur cur') (hg : g.isBrace = true)
    (hvalue : cur.context ≠ .value) (hr : cur.read g = .ok (slot, next)) :
    slot = none ∧ Releases next cur' := by
  have hfree : cur'.context = .free := by
    rw [h.1]
    cases hc : cur.context with
    | free | fixed => rfl
    | value => exact absurd hc hvalue
  rw [Glyph.isBrace, Bool.or_eq_true, beq_iff_eq, beq_iff_eq] at hg
  rcases hg with rfl | rfl
  · obtain ⟨rfl, rfl⟩ := Prod.mk.inj (Except.ok.inj hr)
    exact ⟨rfl, hfree, fun hv => absurd hv (by decide)⟩
  · obtain ⟨rfl, rfl⟩ := Prod.mk.inj (Except.ok.inj hr)
    exact ⟨rfl, hfree, fun hv => absurd hv (by decide)⟩

end Cursor

/-- **Scanning without curly brackets.** If they are read outside of value groups only, the scan finds
the released slots when they are gone. -/
theorem scanWith_release {cur cur' : Cursor} {gs : List Glyph} {r : Scanned}
    (h : cur.Releases cur') (hgs : BracesOutside cur.context gs)
    (hr : scanWith Cursor.read cur gs = .ok r) :
    ∃ r', scanWith Cursor.read cur' (gs.filter (!·.isBrace)) = .ok r' ∧
      r'.chain = r.chain.map Slot.release := by
  induction gs generalizing cur cur' r with
  | nil =>
    obtain rfl := Except.ok.inj hr
    exact ⟨_, rfl, rfl⟩
  | cons g gs ih =>
    obtain ⟨hg, hgs⟩ := hgs
    obtain ⟨slot, next, hstep, hnext⟩ := scanWith_cons_eq_ok hr
    rw [← Cursor.context_next hstep] at hgs
    cases hb : g.isBrace with
    | true =>
      obtain ⟨rfl, hrel⟩ := h.read_brace hb (hg hb) hstep
      obtain ⟨-, hnext⟩ | ⟨_, ⟨⟩, -⟩ | ⟨_, _, ⟨⟩, -⟩ := hnext
      rw [List.filter_cons_of_neg (by rw [hb]; decide)]
      exact ih hrel hgs hnext
    | false =>
      obtain ⟨next', hstep', hrel⟩ := h.read hb hstep
      rw [List.filter_cons_of_pos (by rw [hb]; rfl)]
      rcases hnext with ⟨rfl, hnext⟩ | ⟨s, rfl, he, rfl⟩ | ⟨s, r', rfl, he, hnext, rfl⟩
      · rw [scanWith_skip hstep']
        exact ih hrel hgs hnext
      · exact ⟨_, scanWith_ellipsis hstep' he, rfl⟩
      · obtain ⟨found, hfound, hchain⟩ := ih hrel hgs hnext
        refine ⟨found.push s.release, ?_, congrArg (s.release :: ·) hchain⟩
        rw [scanWith_write hstep' he, hfound]
        rfl

/-- A pattern with an outline, scanned with curly brackets and without them. -/
theorem Outline.scan_release (o : Outline) {found : Scanned}
    (h : Chain.scan .start o.text = .ok found) :
    ∃ found', Chain.scan .start (withoutBraces o.text) = .ok found' ∧
      found'.chain = found.chain.map Slot.release := by
  rw [Chain.scan_eq_scanWith_read rfl, Glyph.read_outline] at h
  rw [Chain.scan_eq_scanWith_read rfl, ← o.text_release, Glyph.read_outline, ← o.filter_glyphs]
  exact scanWith_release ⟨rfl, fun _ => rfl⟩ (BracesOutside.of_outline o) h

/-! ### Normal forms without curly brackets -/

theorem Item.normal_release (i : Item) : i.release.flatMap normal = i.normal.flatMap release := by
  cases i with
  | free l => rfl
  | fixed ls =>
    rw [release, List.flatMap_map]
    exact (List.map_eq_flatMap).symm.trans (List.append_nil _).symm
  | value g =>
    rw [release, List.flatMap_singleton, normal, List.flatMap_map]
    exact List.map_eq_flatMap

/-- **The normal form without curly brackets** is that of the pattern without them. -/
theorem Outline.normal_release (o : Outline) : o.release.normal = o.normal.release := by
  rw [normal, release, normal, release, List.flatMap_assoc, List.flatMap_assoc]
  simp only [Item.normal_release]

theorem normalize_withoutBraces {p normal : Text} (h : normalize p = .ok normal) :
    normalize (withoutBraces p) = .ok (withoutBraces normal) := by
  have hform := Except.mapError_eq_ok_iff.mp h
  obtain ⟨o, rfl⟩ := Outline.exists_of_normalForm hform
  obtain rfl := Except.ok.inj (o.normalForm_text.symm.trans hform)
  rw [← o.text_release, ← o.normal.text_release, ← o.normal_release]
  exact Except.mapError_eq_ok_iff.mpr o.release.normalForm_text

/-- **The chain without curly brackets** is the released chain: the normal forms are scanned with them
and without them. -/
theorem Chain.scan_withoutBraces {p normal : Text} (h : normalize p = .ok normal) :
    ∃ found found', scan .start normal = .ok found ∧
      scan .start (withoutBraces normal) = .ok found' ∧
      found'.chain = found.chain.map Slot.release := by
  obtain ⟨found, hscan, -⟩ := exists_scan_of_normalize h
  have hform := Except.mapError_eq_ok_iff.mp h
  obtain ⟨o, rfl⟩ := Outline.exists_of_normalForm hform
  obtain rfl := Except.ok.inj (o.normalForm_text.symm.trans hform)
  obtain ⟨found', hscan', hchain⟩ := o.normal.scan_release hscan
  exact ⟨found, found', hscan, hscan', hchain⟩

/-! ### Runs through released chains -/

namespace Chain

theorem Regular.release {chain : Chain} (h : chain.Regular) :
    Regular (chain.map Slot.release) := by
  induction h with
  | endOfLine => exact .endOfLine
  | ellipsis k => exact .ellipsis k
  | fixed d _ ih => exact .free d ih
  | free d _ ih => exact .free d ih
  | value k _ ih => exact .value k ih
  | optional k _ ih => exact .optional k ih

variable {c : Char} {chain : Chain}

/-- A released chain drops the same characters. -/
theorem Offer.release_drop (ho : Offer c chain none) : Offer c (chain.map Slot.release) none := by
  cases ho with
  | valueDrop rest h => exact .valueDrop _ h
  | ellipsisDrop h => exact .ellipsisDrop h
  | endOfLine => exact .endOfLine

/-- **Offers to a released chain.** The same is written and used up, and the released slots are left
over. -/
theorem Offer.release {step : Step} (ho : Offer c chain (some step)) :
    ∃ value, Offer c (chain.map Slot.release)
      (some { step with value := value, next := step.next.map Slot.release }) := by
  cases ho with
  | fixed d rest => exact ⟨none, .free d _⟩
  | free d rest => exact ⟨none, .free d _⟩
  | value rest h => exact ⟨some [c], .value _ h⟩
  | optional rest h => exact ⟨some [c], .optional _ h⟩
  | optionalSkip rest h => exact ⟨none, .optionalSkip _ h⟩
  | ellipsis h => exact ⟨some [c], .ellipsis h⟩

/-- A released chain has nothing to write if the chain has not. -/
theorem Regular.autocomplete_release (h : chain.Regular) (hstop : chain.autocomplete = .ok none) :
    autocomplete (chain.map Slot.release) = .ok none := by
  rw [h.release.autocomplete_eq_none_iff, List.takeWhile_map]
  simp only [Function.comp_def, Slot.isLiteral_release]
  rw [h.autocomplete_eq_none_iff.mp hstop, List.map_nil]

end Chain

end TextMask
