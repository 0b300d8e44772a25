import TextMask.Proofs.Pattern.Cuts

/-!
# Runs in normal order

A run in normal order is so many copies of the mandatory symbol of its family, so many of the
optional one, and so many ellipses.

* `FamilyRun.inOrder_entries`: the entries of a run in normal order;
* `Entry.withFamily_replicate_append`: copies of a symbol give their family to what follows.
-/

namespace TextMask

namespace Entry

/-- Entries of one form are copies of one entry. -/
theorem filter_eq_replicate {es : List Entry} {p : Entry → Bool} {x : Entry}
    (h : ∀ e ∈ es, p e = true → e = x) : es.filter p = List.replicate (es.countP p) x := by
  rw [List.eq_replicate_iff]
  refine ⟨List.countP_eq_length_filter.symm, fun e he => ?_⟩
  obtain ⟨hmem, hp⟩ := List.mem_filter.mp he
  exact h e hmem hp

/-- Copies of a symbol have its family, and so have the ellipses behind them. -/
theorem withFamily_replicate_append (n : Nat) (s : ValueSymbol) (family : Option CharClass)
    (rest : List Entry) :
    withFamily family (List.replicate n (.symbol s) ++ rest) =
      List.replicate n (some s.charClass, .symbol s) ++
        withFamily (if n = 0 then family else some s.charClass) rest := by
  induction n generalizing family with
  | zero => rfl
  | succ n ih =>
    have hrest := ih (some s.charClass)
    rw [ite_self] at hrest
    rw [List.replicate_succ, List.cons_append, withFamily, hrest]
    rfl

theorem withFamily_replicate_ellipsis (n : Nat) (family : Option CharClass) :
    withFamily family (List.replicate n .ellipsis) = List.replicate n (family, .ellipsis) := by
  induction n with
  | zero => rfl
  | succ n ih =>
    rw [List.replicate_succ, withFamily, ih]
    rfl

theorem inOrder_replicate_ellipsis (n : Nat) :
    inOrder (List.replicate n .ellipsis) = List.replicate n .ellipsis := by
  rw [inOrder, List.filter_replicate_of_neg Bool.false_ne_true,
    List.filter_replicate_of_neg Bool.false_ne_true, List.filter_replicate_of_pos rfl]
  rfl

end Entry

namespace FamilyRun

/-- A run in normal order. -/
theorem inOrder_entries (r : FamilyRun) :
    Entry.inOrder r.entries =
      List.replicate (r.entries.countP Entry.isMandatory) (.symbol ⟨r.family, false⟩) ++
        List.replicate (r.entries.countP Entry.isOptional) (.symbol ⟨r.family, true⟩) ++
        List.replicate (r.entries.countP Entry.isEllipsis) .ellipsis := by
  have hmandatory : ∀ e ∈ r.entries, e.isMandatory = true → e = .symbol ⟨r.family, false⟩ := by
    intro e he hp
    cases e with
    | symbol s =>
      have hoptional : s.optional = false := Bool.not_eq_true' _ |>.mp hp
      rw [← r.charClass_eq he, ← hoptional]
    | ellipsis => cases hp
  have hoptional : ∀ e ∈ r.entries, e.isOptional = true → e = .symbol ⟨r.family, true⟩ := by
    intro e he hp
    cases e with
    | symbol s =>
      have hoptional : s.optional = true := hp
      rw [← r.charClass_eq he, ← hoptional]
    | ellipsis => cases hp
  have hellipsis : ∀ e ∈ r.entries, e.isEllipsis = true → e = .ellipsis := by
    intro e _ hp
    cases e with
    | symbol s => cases hp
    | ellipsis => rfl
  rw [Entry.inOrder, Entry.filter_eq_replicate hmandatory, Entry.filter_eq_replicate hoptional,
    Entry.filter_eq_replicate hellipsis]

/-- A run has a symbol. -/
theorem exists_symbol (r : FamilyRun) :
    r.entries.countP Entry.isMandatory ≠ 0 ∨ r.entries.countP Entry.isOptional ≠ 0 := by
  obtain ⟨k, b, more, _⟩ := r
  cases b with
  | false => exact Or.inl (List.countP_pos_iff.mpr ⟨_, List.mem_cons_self, rfl⟩).ne'
  | true => exact Or.inr (List.countP_pos_iff.mpr ⟨_, List.mem_cons_self, rfl⟩).ne'

end FamilyRun

end TextMask
