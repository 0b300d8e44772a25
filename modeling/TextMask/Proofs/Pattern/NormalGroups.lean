import Mathlib.Data.List.Perm.Basic
import TextMask.Proofs.Pattern.Acceptance
import TextMask.Proofs.Pattern.Groups
import TextMask.Proofs.Pattern.NormalOrder

/-!
# Patterns in normal form

A pattern is in normal form if each of its value groups is: the group is not empty, it has symbols
of one family only, and they stand in normal order. Normalizing leaves such patterns alone and makes
one of every other format, by rearranging what stands in value groups.

* `IsNormalGroup`: the bodies of value groups in normal form;
* `Entry.perm_runs`: putting the runs of a group in order rearranges the group;
* `ValueGroup.isNormalGroup_of_mem_runs`: a run in normal order is a body in normal form;
* `Item.normal_eq_self`: a value group in normal form is left alone;
* `normalize_normal_forms`: the patterns in normal form are those that normalizing makes.
-/

namespace TextMask

/-- The body of a value group in normal form: mandatory symbols of a class, then optional ones of
that class, then ellipses, and at least one of these. -/
def IsNormalGroup (body : Text) : Prop :=
  body ≠ [] ∧ ∃ (k : CharClass) (mandatory optional ellipses : Nat),
    body = List.replicate mandatory k.mandatorySymbol ++
      List.replicate optional k.optionalSymbol ++ List.replicate ellipses ellipsisMark

/-! ### Normalizing rearranges value groups -/

namespace Entry

/-- Putting a run in order rearranges it. -/
theorem inOrder_perm (run : List Entry) : (inOrder run).Perm run := by
  induction run with
  | nil => exact .nil
  | cons e run ih =>
    cases e with
    | symbol s =>
      cases hs : s.optional with
      | false =>
        have hcons : inOrder (.symbol s :: run) = .symbol s :: inOrder run := by
          simp [inOrder, isMandatory, isOptional, isEllipsis, hs]
        rw [hcons]
        exact ih.cons _
      | true =>
        have hcons : inOrder (.symbol s :: run) = run.filter isMandatory ++
            .symbol s :: (run.filter isOptional ++ run.filter isEllipsis) := by
          simp [inOrder, isMandatory, isOptional, isEllipsis, hs]
        rw [hcons]
        refine List.perm_middle.trans (List.Perm.cons _ ?_)
        rw [← List.append_assoc]
        exact ih
    | ellipsis =>
      have hcons : inOrder (.ellipsis :: run) =
          run.filter isMandatory ++ run.filter isOptional ++
            .ellipsis :: run.filter isEllipsis := by
        simp [inOrder, List.filter_cons, isMandatory, isOptional, isEllipsis]
      rw [hcons]
      exact List.perm_middle.trans (ih.cons _)

theorem map_snd_withFamily (family : Option CharClass) (es : List Entry) :
    (withFamily family es).map (·.2) = es := by
  induction es generalizing family with
  | nil => rfl
  | cons e es ih =>
    cases e with
    | symbol s => simp [withFamily, ih]
    | ellipsis => simp [withFamily, ih]

/-- The runs of a group are the group, cut into pieces. -/
theorem flatten_runs (es : List Entry) : (runs es).flatten = es := by
  rw [runs, ← List.map_flatten, List.flatten_splitBy, map_snd_withFamily]

theorem perm_runs (es : List Entry) : ((runs es).map inOrder).flatten.Perm es := by
  have hperm : ((runs es).flatMap inOrder).Perm ((runs es).flatMap id) :=
    List.Perm.flatMap_left _ fun run _ => inOrder_perm run
  rw [List.flatMap_id, flatten_runs, List.flatMap_def] at hperm
  exact hperm

/-- Entries of one family are one run. -/
theorem runs_of_family {es : List Entry} (family : Option CharClass) (hne : es ≠ [])
    (h : ∀ p ∈ withFamily none es, p.1 = family) : runs es = [es] := by
  have hlength : (withFamily none es) ≠ [] := by
    intro hnil
    have hes := map_snd_withFamily none es
    rw [hnil] at hes
    exact hne hes.symm
  have hchain : (withFamily none es).IsChain fun a b => (a.1 == b.1) = true := by
    refine (List.pairwise_iff_forall_sublist.mpr fun {a b} hab => ?_).isChain
    have ha := h a (hab.subset (by simp))
    have hb := h b (hab.subset (by simp))
    rw [ha, hb]
    exact beq_self_eq_true _
  rw [runs, List.splitBy_of_isChain hlength hchain, List.map_singleton, map_snd_withFamily]

/-- The entries of a run in normal order. -/
def ordered (k : CharClass) (mandatory optional ellipses : Nat) : List Entry :=
  List.replicate mandatory (.symbol ⟨k, false⟩) ++ List.replicate optional (.symbol ⟨k, true⟩) ++
    List.replicate ellipses .ellipsis

theorem map_toChar_ordered (k : CharClass) (mandatory optional ellipses : Nat) :
    (ordered k mandatory optional ellipses).map toChar =
      List.replicate mandatory k.mandatorySymbol ++ List.replicate optional k.optionalSymbol ++
        List.replicate ellipses ellipsisMark := by
  simp only [ordered, List.map_append, List.map_replicate]
  rfl

theorem inOrder_ordered (k : CharClass) (mandatory optional ellipses : Nat) :
    inOrder (ordered k mandatory optional ellipses) = ordered k mandatory optional ellipses := by
  simp [inOrder, ordered, List.filter_replicate, isMandatory, isOptional, isEllipsis]

theorem runs_ordered {k : CharClass} {mandatory optional ellipses : Nat}
    (hne : ordered k mandatory optional ellipses ≠ []) :
    runs (ordered k mandatory optional ellipses) = [ordered k mandatory optional ellipses] := by
  by_cases hsymbols : mandatory = 0 ∧ optional = 0
  · obtain ⟨rfl, rfl⟩ := hsymbols
    refine runs_of_family none hne fun p hp => ?_
    have hp' : p ∈ withFamily none (List.replicate ellipses .ellipsis) := by
      simpa [ordered] using hp
    rw [withFamily_replicate_ellipsis] at hp'
    rw [List.eq_of_mem_replicate hp']
  · refine runs_of_family (some k) hne fun p hp => ?_
    rw [ordered, List.append_assoc, withFamily_replicate_append, withFamily_replicate_append,
      withFamily_replicate_ellipsis] at hp
    have hfamily : (if optional = 0 then if mandatory = 0 then none else some k else some k) =
        some k := by
      split
      · next ho => rw [if_neg fun hm => hsymbols ⟨hm, ho⟩]
      · rfl
    rw [hfamily] at hp
    rcases List.mem_append.mp hp with hp | hp
    · rw [List.eq_of_mem_replicate hp]
    · rcases List.mem_append.mp hp with hp | hp
      · rw [List.eq_of_mem_replicate hp]
      · rw [List.eq_of_mem_replicate hp]

/-- The entries of a body in normal form. -/
theorem exists_ordered {es : List Entry} (h : IsNormalGroup (es.map toChar)) :
    es ≠ [] ∧ ∃ k mandatory optional ellipses, es = ordered k mandatory optional ellipses := by
  obtain ⟨hne, k, mandatory, optional, ellipses, hbody⟩ := h
  have hinjective : Function.Injective (List.map toChar) := by
    refine List.map_injective_iff.mpr fun e e' he => ?_
    have hsome := e.ofChar?_toChar
    rw [he, ofChar?_toChar] at hsome
    exact (Option.some.inj hsome).symm
  rw [← map_toChar_ordered] at hbody
  refine ⟨fun hnil => hne (by rw [hnil]; rfl), k, mandatory, optional, ellipses, hinjective hbody⟩

end Entry

/-- **Runs become normal groups.** -/
theorem ValueGroup.isNormalGroup_of_mem_runs {g : ValueGroup} {run : List Entry}
    (h : run ∈ Entry.runs g.entries) : IsNormalGroup ((Entry.inOrder run).map Entry.toChar) := by
  have hne : run ≠ [] := by
    rw [runs_entries] at h
    obtain ⟨cut, hcut, rfl⟩ := List.mem_map.mp h
    exact ne_nil_of_mem_cuts hcut
  have hordered : ∃ k a b c, Entry.inOrder run = Entry.ordered k a b c := by
    rw [runs_entries] at h
    obtain ⟨cut, hcut, rfl⟩ := List.mem_map.mp h
    rcases List.mem_append.mp hcut with hcut | hcut
    · split at hcut
      · cases hcut
      · obtain rfl := List.mem_singleton.mp hcut
        refine ⟨.alphanumeric, 0, 0, g.leading, ?_⟩
        rw [Entry.inOrder_replicate_ellipsis]
        rfl
    · obtain ⟨r, -, rfl⟩ := List.mem_map.mp hcut
      exact ⟨r.family, _, _, _, r.inOrder_entries⟩
  obtain ⟨k, a, b, c, horder⟩ := hordered
  refine ⟨fun hnil => hne ?_, k, a, b, c, ?_⟩
  · exact List.Perm.eq_nil ((List.map_eq_nil_iff.mp hnil) ▸ (Entry.inOrder_perm run).symm)
  · rw [horder, Entry.map_toChar_ordered]

/-- **A value group in normal form is left alone.** -/
theorem Item.normal_eq_self {i : Item}
    (h : ∀ es ∈ i.groups, IsNormalGroup (es.map Entry.toChar)) : i.normal = [i] := by
  cases i with
  | free l => rfl
  | fixed ls => rfl
  | value g =>
    obtain ⟨hne, k, a, b, c, hes⟩ := Entry.exists_ordered (h g.entries (List.mem_singleton_self _))
    rw [hes] at hne
    rw [normal, hes, Entry.runs_ordered hne, List.map_singleton, Entry.inOrder_ordered, ← hes,
      ValueGroup.ofEntries_entries]

namespace Outline

theorem groups_normal (o : Outline) :
    o.normal.groups = o.groups.flatMap fun es => (Entry.runs es).map Entry.inOrder := by
  have hitem (i : Item) : i.normal.flatMap Item.groups =
      i.groups.flatMap fun es => (Entry.runs es).map Entry.inOrder := by
    cases i with
    | free l => rfl
    | fixed ls => rfl
    | value g =>
      rw [Item.normal, List.flatMap_map, Item.groups, List.flatMap_singleton, List.map_eq_flatMap]
      simp only [Item.groups, ValueGroup.entries_ofEntries]
  simp only [groups, normal, List.flatMap_assoc, hitem]

theorem isNormalGroup_of_mem_normal {o : Outline} {es : List Entry} (h : es ∈ o.normal.groups) :
    IsNormalGroup (es.map Entry.toChar) := by
  rw [groups_normal] at h
  obtain ⟨group, hgroup, hes⟩ := List.mem_flatMap.mp h
  obtain ⟨run, hrun, rfl⟩ := List.mem_map.mp hes
  rw [← ValueGroup.entries_ofEntries group] at hrun
  exact ValueGroup.isNormalGroup_of_mem_runs hrun

theorem normal_eq_self {o : Outline} (h : ∀ es ∈ o.groups, IsNormalGroup (es.map Entry.toChar)) :
    o.normal = o := by
  have hitems : o.items.flatMap Item.normal = o.items.flatMap fun i => [i] := by
    refine List.flatMap_congr fun i hi => Item.normal_eq_self fun es hes => ?_
    exact h es (List.mem_flatMap.mpr ⟨i, hi, hes⟩)
  rw [normal, hitems, List.flatMap_singleton']

theorem perm_groups_normal (o : Outline) : o.normal.groups.flatten.Perm o.groups.flatten := by
  have hperm : (o.groups.flatMap fun es => ((Entry.runs es).map Entry.inOrder).flatten).Perm
      (o.groups.flatMap id) := List.Perm.flatMap_left _ fun es _ => Entry.perm_runs es
  rw [groups_normal, List.flatMap_def, List.flatten_flatten, List.map_map, ← List.flatMap_def]
  rw [List.flatMap_id] at hperm
  exact hperm

theorem outside_normal (o : Outline) :
    o.normal.items.flatMap Item.outside = o.items.flatMap Item.outside := by
  have hitem (i : Item) : i.normal.flatMap Item.outside = i.outside := by
    cases i with
    | free l => exact List.append_nil _
    | fixed ls => exact List.append_nil _
    | value g => simp [Item.normal, Item.outside, List.flatMap_map]
  simp only [normal, List.flatMap_assoc, hitem]

end Outline

/-! ### Normal forms -/

/-- **Normal forms.** The normal form of a pattern is its own normal form. Its value groups are in
normal form; without them it is the pattern without its value groups, and the same symbols stand in
them, each as often. A pattern is its own normal form just when it has one and its value groups are
in normal form. -/
theorem normalize_normal_forms (p : Text) :
    (∀ normal, normalize p = .ok normal →
      normalize normal = .ok normal ∧ (∀ body ∈ valueGroups normal, IsNormalGroup body) ∧
        withoutValueGroups normal = withoutValueGroups p ∧
        (valueGroups normal).flatten.Perm (valueGroups p).flatten) ∧
      (normalize p = .ok p ↔
        (∃ normal, normalize p = .ok normal) ∧ ∀ body ∈ valueGroups p, IsNormalGroup body) := by
  have hnormalize (o : Outline) : normalize o.text = .ok o.normal.text :=
    Except.mapError_eq_ok_iff.mpr o.normalForm_text
  have hgroups (o : Outline) : ∀ body ∈ valueGroups o.normal.text, IsNormalGroup body := by
    intro body hbody
    rw [Outline.valueGroups_text] at hbody
    obtain ⟨es, hes, rfl⟩ := List.mem_map.mp hbody
    exact Outline.isNormalGroup_of_mem_normal hes
  have hself (o : Outline) (h : ∀ body ∈ valueGroups o.text, IsNormalGroup body) :
      o.normal = o := by
    rw [Outline.valueGroups_text] at h
    exact Outline.normal_eq_self fun es hes => h _ (List.mem_map_of_mem hes)
  constructor
  · intro normal h
    obtain ⟨o, rfl⟩ := Outline.exists_of_normalForm (Except.mapError_eq_ok_iff.mp h)
    obtain rfl := Except.ok.inj ((hnormalize o).symm.trans h)
    refine ⟨?_, hgroups o, ?_, ?_⟩
    · have hagain := hnormalize o.normal
      rw [hself o.normal (hgroups o)] at hagain
      exact hagain
    · rw [Outline.withoutValueGroups_text, Outline.withoutValueGroups_text, Outline.outside_normal]
      rfl
    · rw [Outline.valueGroups_text, Outline.valueGroups_text, ← List.map_flatten,
        ← List.map_flatten]
      exact o.perm_groups_normal.map _
  · constructor
    · intro h
      obtain ⟨o, rfl⟩ := Outline.exists_of_normalForm (Except.mapError_eq_ok_iff.mp h)
      have hgroup := hgroups o
      rw [Except.ok.inj ((hnormalize o).symm.trans h)] at hgroup
      exact ⟨⟨_, h⟩, hgroup⟩
    · rintro ⟨⟨normal, h⟩, hgroup⟩
      obtain ⟨o, rfl⟩ := Outline.exists_of_normalForm (Except.mapError_eq_ok_iff.mp h)
      have hnormal := hnormalize o
      rw [hself o hgroup] at hnormal
      exact hnormal

/-- A group with ellipses at its start and two families in it, an empty group, and a fixed group
with an escape. -/
theorem normalize_normal_forms_mixed :
    normalize ['[', '…', '9', '0', 'A', ']', '\x7b', '\\', ']', '\x7d', '[', ']', 'x'] =
        .ok ['[', '…', ']', '[', '0', '9', ']', '[', 'A', ']', '\x7b', '\\', ']', '\x7d', 'x'] ∧
      normalize ['[', '…', ']', '[', '0', '9', ']', '[', 'A', ']', '\x7b', '\\', ']', '\x7d', 'x'] =
        .ok ['[', '…', ']', '[', '0', '9', ']', '[', 'A', ']', '\x7b', '\\', ']', '\x7d', 'x'] ∧
      IsNormalGroup ['0', '9'] ∧ ['…', '0', '9', 'A'].Perm ['…', '9', '0', 'A'] := by
  have hnormal : normalize
      ['[', '…', '9', '0', 'A', ']', '\x7b', '\\', ']', '\x7d', '[', ']', 'x'] =
      .ok ['[', '…', ']', '[', '0', '9', ']', '[', 'A', ']', '\x7b', '\\', ']', '\x7d', 'x'] := rfl
  obtain ⟨hagain, hgroups, -, hperm⟩ := (normalize_normal_forms _).1 _ hnormal
  exact ⟨hnormal, hagain, hgroups _ (List.mem_cons_of_mem _ List.mem_cons_self), hperm⟩

end TextMask
