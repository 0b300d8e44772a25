import Mathlib.Data.List.SplitBy
import TextMask.Proofs.Pattern.Outline

/-!
# Cutting value groups

The entries of a value group can be cut in one way only into runs that are as long as they can be,
and it is the way that normal forms cut them.

* `ValueGroup.cuts`: the runs of a value group, with the family that each of them has;
* `ValueGroup.runs_entries`: normal forms cut the entries of a value group into its runs;
* `ValueGroup.entries_injective`: they can be cut in no other way;
* `ValueGroup.ofEntries`: the value group with given entries.
-/

namespace TextMask

/-! ### Families -/

/-- Entries without a symbol of another family do not change the family. -/
theorem Entry.withFamily_append {family : Option CharClass} {es : List Entry}
    (h : ∀ s, .symbol s ∈ es → some s.charClass = family) (rest : List Entry) :
    withFamily family (es ++ rest) = es.map (family, ·) ++ withFamily family rest := by
  induction es with
  | nil => rfl
  | cons e es ih =>
    have hes := ih fun s hs => h s (List.mem_cons_of_mem _ hs)
    cases e with
    | symbol s =>
      have hs : some s.charClass = family := h s List.mem_cons_self
      show (some s.charClass, Entry.symbol s) :: withFamily (some s.charClass) (es ++ rest) = _
      rw [hs, hes]
      rfl
    | ellipsis =>
      show (family, Entry.ellipsis) :: withFamily family (es ++ rest) = _
      rw [hes]
      rfl

namespace FamilyRun

theorem entries_ne_nil (r : FamilyRun) : r.entries ≠ [] := List.cons_ne_nil _ _

/-- All symbols of a run have its family. -/
theorem charClass_eq (r : FamilyRun) {s : ValueSymbol} (h : .symbol s ∈ r.entries) :
    s.charClass = r.family := by
  rcases List.mem_cons.mp h with h | h
  · cases h; rfl
  · exact r.uniform s h

theorem entries_injective : Function.Injective entries := by
  rintro ⟨k, b, es, _⟩ ⟨k', b', es', _⟩ h
  cases h
  rfl

theorem withFamily_append (r : FamilyRun) (family : Option CharClass) (rest : List Entry) :
    Entry.withFamily family (r.entries ++ rest) =
      r.entries.map (some r.family, ·) ++ Entry.withFamily (some r.family) rest := by
  have hmore : Entry.withFamily (some r.family) (r.more ++ rest) =
      r.more.map (some r.family, ·) ++ Entry.withFamily (some r.family) rest :=
    Entry.withFamily_append (fun s hs => congrArg some (r.uniform s hs)) rest
  show _ :: Entry.withFamily (some r.family) (r.more ++ rest) = _
  rw [hmore]
  rfl

theorem withFamily_flatMap (family : Option CharClass) (rs : List FamilyRun) :
    Entry.withFamily family (rs.flatMap entries) =
      rs.flatMap fun r => r.entries.map (some r.family, ·) := by
  induction rs generalizing family with
  | nil => rfl
  | cons r rs ih => rw [List.flatMap_cons, withFamily_append, ih, List.flatMap_cons]

end FamilyRun

/-! ### Runs -/

namespace ValueGroup

/-- The runs of the group with their families; the ellipses that it begins with have none. -/
def cuts (g : ValueGroup) : List (Option CharClass × List Entry) :=
  (if g.leading = 0 then [] else [(none, List.replicate g.leading .ellipsis)])
    ++ g.runs.map fun r => (some r.family, r.entries)

theorem ne_nil_of_mem_cuts {g : ValueGroup} {cut : Option CharClass × List Entry}
    (h : cut ∈ g.cuts) : cut.2 ≠ [] := by
  rcases List.mem_append.mp h with h | h
  · split at h
    · cases h
    next hn =>
      obtain rfl := List.mem_singleton.mp h
      exact fun h => hn (List.replicate_eq_nil_iff _ |>.mp h)
  · obtain ⟨r, -, rfl⟩ := List.mem_map.mp h
    exact r.entries_ne_nil

/-- Neighbours among the runs differ in their families. -/
theorem isChain_cuts (g : ValueGroup) : g.cuts.IsChain fun a b => a.1 ≠ b.1 := by
  have hruns : (g.runs.map fun r => (some r.family, r.entries)).IsChain
      fun a b => a.1 ≠ b.1 :=
    List.isChain_map_of_isChain _ (fun _ _ hne h => hne (Option.some.inj h)) g.maximal
  rw [cuts]
  split
  · exact hruns
  · refine hruns.cons fun cut hcut h => ?_
    obtain ⟨r, -, rfl⟩ := List.mem_map.mp (List.mem_of_mem_head? hcut)
    cases h

theorem withFamily_entries (g : ValueGroup) :
    Entry.withFamily none g.entries = g.cuts.flatMap fun cut => cut.2.map (cut.1, ·) := by
  have hleading : ∀ s, .symbol s ∈ List.replicate g.leading Entry.ellipsis →
      some s.charClass = none := fun s hs => nomatch List.eq_of_mem_replicate hs
  rw [entries, Entry.withFamily_append hleading, FamilyRun.withFamily_flatMap, cuts,
    List.flatMap_append, List.flatMap_map]
  split
  next hn => rw [hn]; rfl
  · rw [List.flatMap_singleton]

/-- **Cutting a value group.** Normal forms cut the entries of a value group into its runs. -/
theorem runs_entries (g : ValueGroup) : Entry.runs g.entries = g.cuts.map (·.2) := by
  have hsplit : (Entry.withFamily none g.entries).splitBy (fun a b => a.1 == b.1) =
      g.cuts.map fun cut => cut.2.map (cut.1, ·) := by
    rw [List.splitBy_eq_iff, withFamily_entries, List.flatMap_def]
    refine ⟨rfl, fun h => ?_, fun m hm => ?_, ?_⟩
    · obtain ⟨cut, hcut, h⟩ := List.mem_map.mp h
      exact ne_nil_of_mem_cuts hcut (List.map_eq_nil_iff.mp h)
    · obtain ⟨cut, -, rfl⟩ := List.mem_map.mp hm
      rw [List.isChain_map]
      exact (List.pairwise_of_forall fun _ _ => BEq.rfl).isChain
    · rw [List.isChain_map]
      refine g.isChain_cuts.imp_of_mem_imp fun a b ha hb hne => ?_
      refine ⟨fun h => ne_nil_of_mem_cuts ha (List.map_eq_nil_iff.mp h),
        fun h => ne_nil_of_mem_cuts hb (List.map_eq_nil_iff.mp h), ?_⟩
      rw [List.getLast_map, List.head_map]
      exact beq_eq_false_iff_ne.mpr hne
  rw [Entry.runs, hsplit, List.map_map]
  refine List.map_congr_left fun cut _ => ?_
  show (cut.2.map (cut.1, ·)).map (·.2) = cut.2
  rw [List.map_map]
  exact List.map_id _

/-- The entries of a value group tell where its runs end. -/
theorem entries_injective : Function.Injective entries := by
  intro g g' h
  have hcuts : g.cuts.map (·.2) = g'.cuts.map (·.2) := by
    rw [← runs_entries, ← runs_entries, h]
  obtain ⟨n, rs, _⟩ := g
  obtain ⟨n', rs', _⟩ := g'
  have hruns {rs rs' : List FamilyRun} (h : rs.map FamilyRun.entries = rs'.map FamilyRun.entries) :
      rs = rs' := List.map_injective_iff.mpr FamilyRun.entries_injective h
  -- a run begins with a symbol, so that it is not the run of the leading ellipses
  have hfirst {m : Nat} {rs : List FamilyRun} {es : List (List Entry)}
      (h : rs.map FamilyRun.entries = List.replicate (m + 1) .ellipsis :: es) : False := by
    cases rs with
    | nil => cases h
    | cons r rs => cases (List.cons.inj (List.cons.inj h).1).1
  simp only [cuts, List.map_append, List.map_map] at hcuts
  cases n with
  | zero =>
    cases n' with
    | zero =>
      obtain rfl := hruns hcuts
      rfl
    | succ n' => exact (hfirst hcuts).elim
  | succ n =>
    cases n' with
    | zero => exact (hfirst hcuts.symm).elim
    | succ n' =>
      obtain ⟨hleading, hrest⟩ := List.cons.inj hcuts
      obtain rfl : n = n' := by
        have hlength := congrArg List.length hleading
        rw [List.length_replicate, List.length_replicate] at hlength
        omega
      obtain rfl := hruns hrest
      rfl

end ValueGroup

/-! ### Value groups from entries -/

namespace FamilyRun

/-- A symbol with ellipses behind it. -/
def start (s : ValueSymbol) (ellipses : Nat) : FamilyRun where
  family := s.charClass
  optional := s.optional
  more := List.replicate ellipses .ellipsis
  uniform _ h := nomatch List.eq_of_mem_replicate h

/-- A symbol, with ellipses behind it, in front of a run of its family. -/
def extend (s : ValueSymbol) (ellipses : Nat) (r : FamilyRun) (h : s.charClass = r.family) :
    FamilyRun where
  family := s.charClass
  optional := s.optional
  more := List.replicate ellipses .ellipsis ++ r.entries
  uniform t ht := by
    rcases List.mem_append.mp ht with ht | ht
    · cases List.eq_of_mem_replicate ht
    · rw [h, r.charClass_eq ht]

theorem entries_extend (s : ValueSymbol) (ellipses : Nat) (r : FamilyRun)
    (h : s.charClass = r.family) :
    (extend s ellipses r h).entries =
      .symbol s :: (List.replicate ellipses .ellipsis ++ r.entries) := rfl

end FamilyRun

namespace ValueGroup

/-- A symbol in front of a value group. Its run takes over the ellipses that the group begins
with, and the run behind them if that has its family. -/
def consSymbol (s : ValueSymbol) : ValueGroup → ValueGroup
  | ⟨n, [], _⟩ => ⟨0, [.start s n], List.isChain_singleton _⟩
  | ⟨n, r :: rs, hmax⟩ =>
    if h : s.charClass = r.family then
      ⟨0, .extend s n r h :: rs, hmax.tail.cons fun _ ht => ne_of_eq_of_ne h (hmax.rel_head? ht)⟩
    else
      ⟨0, .start s n :: r :: rs, hmax.cons_cons h⟩

theorem entries_consSymbol (s : ValueSymbol) (g : ValueGroup) :
    (g.consSymbol s).entries = .symbol s :: g.entries := by
  obtain ⟨n, rs, hmax⟩ := g
  cases rs with
  | nil => rfl
  | cons r rs =>
    rw [consSymbol]
    split
    · simp only [entries, List.flatMap_cons, FamilyRun.entries_extend, List.replicate_zero,
        List.nil_append, List.cons_append, List.append_assoc]
    · rfl

/-- An ellipsis in front of a value group. -/
def consEllipsis (g : ValueGroup) : ValueGroup := { g with leading := g.leading + 1 }

theorem entries_consEllipsis (g : ValueGroup) :
    g.consEllipsis.entries = .ellipsis :: g.entries := rfl

/-- The value group with the given entries. -/
def ofEntries : List Entry → ValueGroup
  | [] => ⟨0, [], .nil⟩
  | .symbol s :: es => (ofEntries es).consSymbol s
  | .ellipsis :: es => (ofEntries es).consEllipsis

theorem entries_ofEntries (es : List Entry) : (ofEntries es).entries = es := by
  fun_induction ofEntries es with
  | case1 => rfl
  | case2 s es ih => rw [entries_consSymbol, ih]
  | case3 es ih => rw [entries_consEllipsis, ih]

/-- **Value groups are entries.** The entries of a value group can be cut in no other way. -/
theorem ofEntries_entries (g : ValueGroup) : ofEntries g.entries = g :=
  entries_injective (entries_ofEntries g.entries)

end ValueGroup

end TextMask
