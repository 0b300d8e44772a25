import Mathlib.Data.List.Forall2
import TextMask.Proofs.Chain.Canonical
import TextMask.Proofs.Chain.Meaning
import TextMask.Proofs.Mask.Extent
import TextMask.Proofs.Pattern.Inversions
import TextMask.Proofs.Pattern.NormalGroups

/-!
# What normal order does to a chain

A format without ellipses in its value groups can be read as it stands, too. The two chains have the
same literals at the same places and ask for the same classes of characters at all others. In each
run of one family the mandatory places come first in the chain of the format; so the two chains are
the same just if they did so in the first place.

* `Slot.Alike`: slots with the same literal, or with the same class of characters;
* `FamilyRun.rawSlots`: the slots of a run in the order in which they are written;
* `FamilyRun.slots_perm`, `FamilyRun.alike_slots`, `FamilyRun.rawSlots_eq_iff`: what normal order
  does to a run;
* `Item.slots_perm`, `Item.alike_slots`, `Item.rawSlots_eq_iff`: what it does to an item;
* `Chain.placeholder_of_alike`: placeholders of chains that are alike slot by slot;
* `normal_order_rearranges`: the chain of a format and that of the pattern as it stands.
-/

namespace TextMask

/-! ### Slots that are alike -/

namespace Slot

/-- A place for one character of the class, which has to be filled or can be skipped. -/
def AsksFor (k : CharClass) (s : Slot) : Prop := s = .value k ∨ s = .optional k

/-- The same slot, or a place for one character of the same class. -/
def Alike (s s' : Slot) : Prop := s' = s ∨ ∃ k, s.AsksFor k ∧ s'.AsksFor k

variable {k : CharClass} {s s' : Slot}

theorem AsksFor.elliptical (h : s.AsksFor k) : s.elliptical = false := by
  rcases h with rfl | rfl <;> rfl

/-- Slots that are alike show the same. -/
theorem Alike.shown (h : s.Alike s') :
    (s'.kind != .endOfLine) = (s.kind != .endOfLine) ∧ s'.elliptical = s.elliptical ∧
      s'.filler = s.filler := by
  rcases h with rfl | ⟨k, rfl | rfl, rfl | rfl⟩ <;> exact ⟨rfl, rfl, rfl⟩

end Slot

namespace Chain

/-- Chains that are alike slot by slot have the same placeholder. -/
theorem placeholder_of_alike {chain chain' : Chain} (h : List.Forall₂ Slot.Alike chain chain') :
    placeholder chain' = placeholder chain := by
  induction h with
  | nil => rfl
  | cons hs _ ih =>
    obtain ⟨hkind, helliptical, hfiller⟩ := hs.shown
    simp only [placeholder, slots, List.takeWhile_cons, hkind] at ih ⊢
    split
    · simp only [List.takeWhile_cons, helliptical]
      split
      · rw [List.flatMap_cons, List.flatMap_cons, hfiller, ih]
      · rfl
    · rfl

/-- Slots without an ellipsis stay in front of a chain. -/
theorem attach_eq_append {slots : List Slot} (h : ∀ s ∈ slots, s.elliptical = false)
    (tail : Chain) : attach slots tail = slots ++ tail := by
  induction slots with
  | nil => rfl
  | cons s slots ih =>
    obtain ⟨hs, hslots⟩ := List.forall_mem_cons.mp h
    rw [attach_cons hs, ih hslots, List.cons_append]

end Chain

/-! ### Lists that are put together -/

/-- Two ways to put lists together agree if they agree on each list, provided that its lengths are
the same. -/
theorem flatMap_eq_flatMap_iff {α β : Type} {l : List α} {f g : α → List β}
    (hlength : ∀ a ∈ l, (f a).length = (g a).length) :
    l.flatMap f = l.flatMap g ↔ ∀ a ∈ l, f a = g a := by
  induction l with
  | nil => simp
  | cons a l ih =>
    obtain ⟨ha, hl⟩ := List.forall_mem_cons.mp hlength
    rw [List.flatMap_cons, List.flatMap_cons, List.forall_mem_cons, ← ih hl]
    constructor
    · intro h
      exact List.append_inj h ha
    · intro h
      rw [h.1, h.2]

theorem forall₂_flatMap {α β : Type} {R : β → β → Prop} {l : List α} {f g : α → List β}
    (h : ∀ a ∈ l, List.Forall₂ R (f a) (g a)) : List.Forall₂ R (l.flatMap f) (l.flatMap g) := by
  induction l with
  | nil => exact .nil
  | cons a l ih =>
    obtain ⟨ha, hl⟩ := List.forall_mem_cons.mp h
    rw [List.flatMap_cons, List.flatMap_cons]
    exact List.rel_append ha (ih hl)

/-! ### Runs -/

theorem Entry.slot_injective (family : Option CharClass) :
    Function.Injective fun e => slot (family, e) := by
  intro e e' h
  cases e with
  | symbol s =>
    cases e' with
    | symbol s' =>
      obtain ⟨k, b⟩ := s
      obtain ⟨k', b'⟩ := s'
      cases b <;> cases b' <;> cases h <;> rfl
    | ellipsis =>
      have helliptical : s.slot.elliptical = true := congrArg Slot.elliptical h
      rw [s.slot_elliptical] at helliptical
      cases helliptical
  | ellipsis =>
    cases e' with
    | symbol s' =>
      have helliptical : true = s'.slot.elliptical := congrArg Slot.elliptical h
      rw [s'.slot_elliptical] at helliptical
      cases helliptical
    | ellipsis => rfl

namespace FamilyRun

/-- The slots of the run in the order in which they are written. -/
def rawSlots (r : FamilyRun) : List Slot := r.entries.map fun e => Entry.slot (some r.family, e)

variable {r : FamilyRun}

theorem asksFor_of_mem_rawSlots (hr : .ellipsis ∉ r.entries) {s : Slot} (hs : s ∈ r.rawSlots) :
    s.AsksFor r.family := by
  obtain ⟨e, he, rfl⟩ := List.mem_map.mp hs
  obtain ⟨b, rfl⟩ := eq_symbol hr he
  cases b with
  | false => exact Or.inl rfl
  | true => exact Or.inr rfl

theorem countP_isEllipsis (hr : .ellipsis ∉ r.entries) : r.entries.countP Entry.isEllipsis = 0 := by
  refine List.countP_eq_zero.mpr fun e he => ?_
  obtain ⟨b, rfl⟩ := eq_symbol hr he
  exact Bool.false_ne_true

/-- The mandatory places of a run come first, and then the optional ones. -/
theorem slots_eq_append (hr : .ellipsis ∉ r.entries) :
    r.slots = List.replicate (r.entries.countP Entry.isMandatory) (.value r.family) ++
      List.replicate (r.entries.countP Entry.isOptional) (.optional r.family) := by
  rw [slots, if_pos (countP_isEllipsis hr), List.append_nil]

/-- The slots of a run are those of its entries in normal order. -/
theorem slots_eq_map_inOrder (hr : .ellipsis ∉ r.entries) :
    r.slots = (Entry.inOrder r.entries).map fun e => Entry.slot (some r.family, e) := by
  rw [slots_eq_append hr, inOrder_entries, countP_isEllipsis hr]
  simp only [List.map_append, List.map_replicate, List.replicate_zero, List.append_nil]
  rfl

/-- Normal order rearranges the slots of a run. -/
theorem slots_perm (hr : .ellipsis ∉ r.entries) : r.slots.Perm r.rawSlots := by
  rw [slots_eq_map_inOrder hr, rawSlots]
  exact (Entry.inOrder_perm r.entries).map _

/-- All slots of a run ask for characters of its family, in whatever order they are. -/
theorem alike_slots (hr : .ellipsis ∉ r.entries) : List.Forall₂ Slot.Alike r.rawSlots r.slots := by
  refine List.forall₂_iff_zip.mpr ⟨(slots_perm hr).length_eq.symm, fun hmem => ?_⟩
  obtain ⟨hraw, hslots⟩ := List.of_mem_zip hmem
  exact Or.inr ⟨r.family, asksFor_of_mem_rawSlots hr hraw,
    asksFor_of_mem_rawSlots hr ((slots_perm hr).mem_iff.mp hslots)⟩

/-- Normal order leaves a run alone if no symbols that stand side by side are inverted. -/
theorem rawSlots_eq_iff (hr : .ellipsis ∉ r.entries) :
    r.rawSlots = r.slots ↔ r.entries.IsChain (¬ Entry.Inverted · ·) := by
  have hinjective := List.map_injective_iff.mpr (Entry.slot_injective (some r.family))
  rw [slots_eq_map_inOrder hr, rawSlots, hinjective.eq_iff, eq_comm, inOrder_eq_self hr]

end FamilyRun

/-! ### Items -/

namespace ValueGroup

variable {g : ValueGroup}

theorem rawSlots_eq_flatMap (hg : .ellipsis ∉ g.entries) :
    (Item.value g).rawSlots = g.runs.flatMap FamilyRun.rawSlots := by
  rw [Item.rawSlots, entries_eq_flatMap hg, FamilyRun.withFamily_flatMap, List.map_flatMap]
  simp only [List.map_map]
  rfl

theorem slots_eq_flatMap (hg : .ellipsis ∉ g.entries) :
    (Item.value g).slots = g.runs.flatMap FamilyRun.slots := by
  rw [Item.slots, slots, leading_eq_zero hg]
  rfl

end ValueGroup

namespace Item

variable {i : Item}

/-- Normal order rearranges the slots of an item. -/
theorem slots_perm (hi : ∀ es ∈ i.groups, .ellipsis ∉ es) : i.slots.Perm i.rawSlots := by
  cases i with
  | free l => exact List.Perm.refl _
  | fixed ls => exact List.Perm.refl _
  | value g =>
    have hg := hi _ (List.mem_singleton_self _)
    rw [ValueGroup.rawSlots_eq_flatMap hg, ValueGroup.slots_eq_flatMap hg]
    exact List.Perm.flatMap_left _ fun r hr =>
      FamilyRun.slots_perm (ValueGroup.ellipsis_notMem_run hg hr)

theorem alike_slots (hi : ∀ es ∈ i.groups, .ellipsis ∉ es) :
    List.Forall₂ Slot.Alike i.rawSlots i.slots := by
  cases i with
  | free l => exact List.forall₂_same.mpr fun _ _ => Or.inl rfl
  | fixed ls => exact List.forall₂_same.mpr fun _ _ => Or.inl rfl
  | value g =>
    have hg := hi _ (List.mem_singleton_self _)
    rw [ValueGroup.rawSlots_eq_flatMap hg, ValueGroup.slots_eq_flatMap hg]
    exact forall₂_flatMap fun r hr =>
      FamilyRun.alike_slots (ValueGroup.ellipsis_notMem_run hg hr)

theorem rawSlots_elliptical (hi : ∀ es ∈ i.groups, .ellipsis ∉ es) :
    ∀ s ∈ i.rawSlots, s.elliptical = false := by
  cases i with
  | free l => exact List.forall_mem_singleton.mpr rfl
  | fixed ls => exact List.forall_mem_map.mpr fun _ _ => rfl
  | value g =>
    have hg := hi _ (List.mem_singleton_self _)
    rw [ValueGroup.rawSlots_eq_flatMap hg]
    intro s hs
    obtain ⟨r, hr, hs⟩ := List.mem_flatMap.mp hs
    have hnone := ValueGroup.ellipsis_notMem_run hg hr
    exact (FamilyRun.asksFor_of_mem_rawSlots hnone hs).elliptical

/-- Normal order leaves an item alone if none of its symbols are inverted. -/
theorem rawSlots_eq_iff (hi : ∀ es ∈ i.groups, .ellipsis ∉ es) :
    i.rawSlots = i.slots ↔ ∀ es ∈ i.groups, es.IsChain (¬ Entry.Inverted · ·) := by
  cases i with
  | free l => exact iff_of_true rfl (List.forall_mem_nil _)
  | fixed ls => exact iff_of_true rfl (List.forall_mem_nil _)
  | value g =>
    have hg := hi _ (List.mem_singleton_self _)
    have hruns : ∀ r ∈ g.runs, .ellipsis ∉ r.entries :=
      fun r hr => ValueGroup.ellipsis_notMem_run hg hr
    have hlength : ∀ r ∈ g.runs, r.rawSlots.length = r.slots.length :=
      fun r hr => (FamilyRun.slots_perm (hruns r hr)).length_eq.symm
    rw [ValueGroup.rawSlots_eq_flatMap hg, ValueGroup.slots_eq_flatMap hg,
      flatMap_eq_flatMap_iff hlength, groups, List.forall_mem_singleton,
      ValueGroup.isChain_entries hg]
    exact forall₂_congr fun r hr => FamilyRun.rawSlots_eq_iff (hruns r hr)

end Item

namespace Outline

variable {o : Outline}

/-- The slots of an outline without ellipses, read as they are written. -/
theorem read_eq_flatMap (ho : ∀ es ∈ o.groups, .ellipsis ∉ es) :
    Chain.read o.text = .ok (o.items.flatMap Item.rawSlots ++ [.endOfLine]) := by
  have helliptical : ∀ s ∈ o.items.flatMap Item.rawSlots, s.elliptical = false := by
    intro s hs
    obtain ⟨i, hi, hs⟩ := List.mem_flatMap.mp hs
    exact Item.rawSlots_elliptical
      (fun es hes => ho es (List.mem_flatMap.mpr ⟨i, hi, hes⟩)) s hs
  have hread := Chain.readFrom_glyphs o
  rw [Chain.attach_eq_append helliptical, ← Glyph.read_outline, ← Chain.map_chain_scan_start] at hread
  exact Chain.read_eq_ok_iff.mpr (Except.map_eq_ok_iff.mp hread)

/-- The slots of an outline without ellipses, in normal order. -/
theorem chain_eq_flatMap (ho : ∀ es ∈ o.groups, .ellipsis ∉ es) :
    o.chain = o.items.flatMap Item.slots ++ [.endOfLine] := by
  have helliptical : ∀ s ∈ o.items.flatMap Item.slots, s.elliptical = false := by
    intro s hs
    obtain ⟨i, hi, hs⟩ := List.mem_flatMap.mp hs
    have hnone : ∀ es ∈ i.groups, .ellipsis ∉ es :=
      fun es hes => ho es (List.mem_flatMap.mpr ⟨i, hi, hes⟩)
    exact Item.rawSlots_elliptical hnone s ((Item.slots_perm hnone).mem_iff.mp hs)
  exact Chain.attach_eq_append helliptical _

end Outline

/-- Rearranged chains have the same lengths. -/
theorem Chain.Regular.count_perm {chain chain' : Chain} (h : chain.Regular) (h' : chain'.Regular)
    (hperm : chain'.Perm chain) {kinds : List SlotKind} (hk : kinds.contains .endOfLine = false) :
    chain'.count kinds = chain.count kinds := by
  rw [h.count_eq hk, h'.count_eq hk]
  exact hperm.countP_eq _

/-- **Normal order rearranges**, and does so inside of the runs of one family only. If a pattern has
a normal form, and no ellipsis in a value group, it can be read as it stands. The chain is alike slot
by slot to that of the format: both consist of the slots of the items, one after the other, those of
a value group being the slots of its runs, and in each run of the format the same mandatory places as
in the pattern come first, and then the same optional ones. So placeholders and lengths are the same.
The chains are the same just if no value group has an optional symbol directly in front of a mandatory
one of its family. -/
theorem normal_order_rearranges {p normal : Text} (h : normalize p = .ok normal)
    (he : ∀ body ∈ valueGroups p, ellipsisMark ∉ body) :
    ∃ (o : Outline) (raw chain : Chain), o.text = p ∧
      Chain.read p = .ok raw ∧ Chain.compile p = .ok chain ∧
      List.Forall₂ Slot.Alike raw chain ∧
      raw = o.items.flatMap Item.rawSlots ++ [.endOfLine] ∧
      chain = o.items.flatMap Item.slots ++ [.endOfLine] ∧
      (∀ g, .value g ∈ o.items →
        (Item.value g).rawSlots = g.runs.flatMap FamilyRun.rawSlots ∧
        (Item.value g).slots = g.runs.flatMap FamilyRun.slots ∧
        ∀ r ∈ g.runs, r.slots.Perm r.rawSlots ∧ ∃ mandatory optional,
          r.slots = List.replicate mandatory (.value r.family) ++
            List.replicate optional (.optional r.family)) ∧
      chain.placeholder = raw.placeholder ∧
      chain.minTextLength = raw.minTextLength ∧ chain.maxTextLength = raw.maxTextLength ∧
      chain.minValueLength = raw.minValueLength ∧ chain.maxValueLength = raw.maxValueLength ∧
      (raw = chain ↔ ∀ body ∈ valueGroups p, ∀ k : CharClass,
        ¬ [k.optionalSymbol, k.mandatorySymbol] <:+: body) := by
  obtain ⟨o, rfl⟩ := Outline.exists_of_normalForm (Except.mapError_eq_ok_iff.mp h)
  rw [o.valueGroups_text, List.forall_mem_map] at he
  have ho : ∀ es ∈ o.groups, .ellipsis ∉ es :=
    fun es hes hmem => he es hes (List.mem_map.mpr ⟨_, hmem, rfl⟩)
  have hi : ∀ i ∈ o.items, ∀ es ∈ i.groups, .ellipsis ∉ es :=
    fun i hi es hes => ho es (List.mem_flatMap.mpr ⟨i, hi, hes⟩)
  have hread := Outline.read_eq_flatMap ho
  have hcompile := o.compile_text
  rw [Outline.chain_eq_flatMap ho] at hcompile
  have hraw := (Chain.linked_of_read hread).regular
  have hchain := (Chain.linked_of_compile hcompile).regular
  have halike : List.Forall₂ Slot.Alike (o.items.flatMap Item.rawSlots ++ [Slot.endOfLine])
      (o.items.flatMap Item.slots ++ [Slot.endOfLine]) :=
    List.rel_append (forall₂_flatMap fun i hmem => Item.alike_slots (hi i hmem))
      (.cons (Or.inl rfl) .nil)
  have hperm : (o.items.flatMap Item.slots ++ [Slot.endOfLine]).Perm
      (o.items.flatMap Item.rawSlots ++ [Slot.endOfLine]) :=
    (List.Perm.flatMap_left _ fun i hmem => Item.slots_perm (hi i hmem)).append_right _
  refine ⟨o, _, _, rfl, hread, hcompile, halike, rfl, rfl, ?_, Chain.placeholder_of_alike halike,
    hraw.count_perm hchain hperm rfl, hraw.count_perm hchain hperm rfl,
    hraw.count_perm hchain hperm rfl, hraw.count_perm hchain hperm rfl, ?_⟩
  · intro g hg
    have hnone := hi _ hg _ (List.mem_singleton_self _)
    refine ⟨ValueGroup.rawSlots_eq_flatMap hnone, ValueGroup.slots_eq_flatMap hnone, ?_⟩
    intro r hr
    have hrun := ValueGroup.ellipsis_notMem_run hnone hr
    exact ⟨FamilyRun.slots_perm hrun, _, _, FamilyRun.slots_eq_append hrun⟩
  · have hlength : ∀ i ∈ o.items, i.rawSlots.length = i.slots.length :=
      fun i hmem => (Item.slots_perm (hi i hmem)).length_eq.symm
    rw [List.append_left_inj, flatMap_eq_flatMap_iff hlength, o.valueGroups_text,
      List.forall_mem_map]
    simp only [← Entry.isChain_iff_text]
    rw [Outline.groups, List.forall_mem_flatMap]
    exact forall₂_congr fun i hmem => Item.rawSlots_eq_iff (hi i hmem)

/-- Two families that are written out of order, and literals; and a group that is in order, since the
optional symbol in it stands in front of a symbol of another family. -/
theorem normal_order_rearranges_mixed :
    (∃ raw chain : Chain,
      Chain.read ['[', '9', '0', 'a', 'A', ']', '-', '\x7b', '+', '\x7d', '[', '0', '9', ']'] =
        .ok raw ∧
      Chain.compile ['[', '9', '0', 'a', 'A', ']', '-', '\x7b', '+', '\x7d', '[', '0', '9', ']'] =
        .ok chain ∧
      raw = [.optional .numeric, .value .numeric, .optional .letter, .value .letter, .free '-',
        .fixed '+', .value .numeric, .optional .numeric, .endOfLine] ∧
      chain = [.value .numeric, .optional .numeric, .value .letter, .optional .letter, .free '-',
        .fixed '+', .value .numeric, .optional .numeric, .endOfLine] ∧
      List.Forall₂ Slot.Alike raw chain ∧ chain.placeholder = raw.placeholder ∧
      chain.minValueLength = raw.minValueLength ∧ raw ≠ chain) ∧
    ∃ raw chain : Chain, Chain.read ['[', '0', '9', 'A', ']'] = .ok raw ∧
      Chain.compile ['[', '0', '9', 'A', ']'] = .ok chain ∧ raw = chain := by
  have hnormal : normalize ['[', '9', '0', 'a', 'A', ']', '-', '\x7b', '+', '\x7d', '[', '0', '9',
      ']'] = .ok ['[', '0', '9', ']', '[', 'A', 'a', ']', '-', '\x7b', '+', '\x7d', '[', '0', '9',
      ']'] := rfl
  have hnormal' : normalize ['[', '0', '9', 'A', ']'] =
      .ok ['[', '0', '9', ']', '[', 'A', ']'] := rfl
  obtain ⟨_, raw, chain, -, hraw, hchain, halike, -, -, -, hplaceholder, -, -, hlength, -, hsame⟩ :=
    normal_order_rearranges hnormal (by decide)
  obtain ⟨_, raw', chain', -, hraw', hchain', -, -, -, -, -, -, -, -, -, hsame'⟩ :=
    normal_order_rearranges hnormal' (by decide)
  obtain rfl := Except.ok.inj hraw
  obtain rfl := Except.ok.inj hchain
  refine ⟨⟨_, _, hraw, hchain, rfl, rfl, halike, hplaceholder, hlength, fun heq => ?_⟩,
    raw', chain', hraw', hchain', hsame'.mpr fun body hbody k => ?_⟩
  · exact hsame.mp heq ['9', '0', 'a', 'A'] (by decide) .numeric ⟨[], ['a', 'A'], rfl⟩
  · obtain rfl := List.mem_singleton.mp hbody
    cases k <;> decide

end TextMask
