import TextMask.Proofs.Yaml.Place
import TextMask.Yaml.Merge

/-!
# Merges come to an end

Carrying out a merge takes a `merge` key away from the graph, and what it puts into a mapping are
fields of mappings whose own merges have been carried out. So the number of `merge` keys bounds the
steps, even where mappings are merged in a circle.

* `Graph.mergeCount`: the number of `merge` keys;
* `Graph.Settles`: a graph with the same keys, and no more `merge` keys in use;
* `Graph.Merges`: such a graph, in which a mapping has no `merge` keys left;
* `Graph.mergeWithin_ends`, `Graph.merge_ends`: the merges of a mapping are carried out.
-/

namespace TextMask.Yaml

/-- The sum of the numbers that the members of a list have. -/
def total {α : Type} (k : α → Nat) : List α → Nat
  | [] => 0
  | a :: l => k a + total k l

section

variable {α : Type} {k : α → Nat}

theorem total_modify (f : α → α) {l : List α} {i : Nat} {a : α} (h : l[i]? = some a) :
    total k (l.modify i f) + k a = total k l + k (f a) := by
  induction l generalizing i with
  | nil => cases h
  | cons b l ih =>
    cases i with
    | zero =>
      obtain rfl : b = a := Option.some.inj h
      rw [List.modify_zero_cons, total, total]
      omega
    | succ i =>
      have ih := ih (i := i) h
      rw [List.modify_succ_cons, total, total]
      omega

theorem total_modify_of_eq {f : α → α} (h : ∀ a, k (f a) = k a) (l : List α) (i : Nat) :
    total k (l.modify i f) = total k l := by
  cases ha : l[i]? with
  | none => rw [List.modify_eq_self (List.getElem?_eq_none_iff.mp ha)]
  | some a =>
    have htotal := total_modify (k := k) f ha
    rw [h] at htotal
    omega

theorem total_le_foldl {k' : α → Nat} (h : ∀ a, k a ≤ k' a) (l : List α) (n : Nat) :
    n + total k l ≤ l.foldl (fun n a => n + k' a) n := by
  induction l generalizing n with
  | nil => exact Nat.le_refl _
  | cons a l ih =>
    have := ih (n + k' a)
    have := h a
    rw [total, List.foldl_cons]
    omega

end

theorem countP_eraseP_lt {α : Type} {p : α → Bool} {l : List α} {a : α}
    (h : l.find? p = some a) : (l.eraseP p).countP p < l.countP p := by
  obtain ⟨b, l₁, l₂, -, hb, hl, herase⟩ :=
    List.exists_of_eraseP (List.mem_of_find?_eq_some h) (List.find?_some h)
  rw [herase, hl, List.countP_append, List.countP_append, List.countP_cons_of_pos hb]
  omega

namespace Graph

variable {g g' g'' : Graph} {id : NodeId} {content : Content}

/-- The number of `merge` keys. -/
def mergeCount (g : Graph) : Nat :=
  total (fun n => n.content.fields.countP g.isMerge) g.nodes.toList

/-- The same fields are `merge` keys, and no more of them are in use. -/
structure Settles (g g' : Graph) : Prop where
  isMerge : g'.isMerge = g.isMerge
  count : g'.mergeCount ≤ g.mergeCount

theorem Settles.refl (g : Graph) : g.Settles g := ⟨rfl, Nat.le_refl _⟩

theorem Settles.trans (h : g.Settles g') (h' : g'.Settles g'') : g.Settles g'' :=
  ⟨h'.isMerge.trans h.isMerge, Nat.le_trans h'.count h.count⟩

/-- The merges of a mapping have been carried out: none of its fields is a `merge` key. -/
structure Merges (id : NodeId) (g g' : Graph) : Prop where
  settles : g.Settles g'
  fields : ∀ f ∈ g'.fields id, g.isMerge f = false

theorem Settles.merges (h : g.Settles g') (h' : g'.Merges id g'') : g.Merges id g'' := by
  have hfields := h'.fields
  rw [h.isMerge] at hfields
  exact ⟨h.trans h'.settles, hfields⟩

/-! ### Changes of a graph -/

theorem fields_of_none (h : g.nodes[id]? = none) : g.fields id = [] := by
  rw [fields, content, node, h]
  rfl

theorem fields_of_some {n : Node} (h : g.nodes[id]? = some n) : g.fields id = n.content.fields := by
  rw [fields, Graph.content, node, h]
  rfl

theorem tag_setContent (g : Graph) (id i : NodeId) (content : Content) :
    (g.setContent id content).tag i = g.tag i := by
  rw [tag, tag, node, node, setContent, Array.getElem?_modify]
  split
  · cases g.nodes[i]? <;> rfl
  · rfl

theorem isMerge_setContent (g : Graph) (id : NodeId) (content : Content) :
    (g.setContent id content).isMerge = g.isMerge := by
  funext f
  rw [isMerge, isMerge, tag_setContent]

theorem mem_fields_setContent {f : Field} (h : f ∈ (g.setContent id content).fields id) :
    f ∈ content.fields := by
  cases hn : g.nodes[id]? with
  | none =>
    rw [fields_of_none (by rw [setContent, Array.getElem?_modify, if_pos rfl, hn]; rfl)] at h
    cases h
  | some n =>
    rw [fields_of_some (n := { n with content })
      (by rw [setContent, Array.getElem?_modify, if_pos rfl, hn]; rfl)] at h
    exact h

/-- The `merge` keys of a node are exchanged for those of its new content. -/
theorem mergeCount_setContent_le (g : Graph) (id : NodeId) (content : Content) :
    (g.setContent id content).mergeCount + (g.fields id).countP g.isMerge ≤
      g.mergeCount + content.fields.countP g.isMerge := by
  rw [mergeCount, isMerge_setContent, setContent, Array.toList_modify]
  cases hn : g.nodes[id]? with
  | none =>
    rw [List.modify_eq_self (Array.getElem?_eq_none_iff.mp hn), fields_of_none hn]
    exact Nat.le_add_right _ _
  | some n =>
    rw [fields_of_some hn]
    exact Nat.le_of_eq (total_modify _ (by rw [Array.getElem?_toList, hn]))

theorem tag_setTag (g : Graph) (id i : NodeId) (tag : Tag) :
    (g.setTag id tag).tag i = g.tag i ∨ i = id ∧ (g.setTag id tag).tag i = tag := by
  rw [Graph.tag, Graph.tag, node, node, setTag, Array.getElem?_modify]
  split
  · next h =>
    cases g.nodes[i]? with
    | none => exact Or.inl rfl
    | some n => exact Or.inr ⟨h.symm, rfl⟩
  · exact Or.inl rfl

/-- To make a `value` key to a text touches no `merge` key. -/
theorem setTag_settles (h : g.tag id = .value) : g.Settles (g.setTag id .str) := by
  have hmerge : (g.setTag id .str).isMerge = g.isMerge := by
    funext f
    rw [isMerge, isMerge]
    rcases g.tag_setTag id f.name .str with htag | ⟨rfl, htag⟩
    · rw [htag]
    · rw [htag, h]
      rfl
  refine ⟨hmerge, Nat.le_of_eq ?_⟩
  rw [mergeCount, hmerge, setTag, Array.toList_modify]
  exact total_modify_of_eq (by exact fun _ => rfl) _ _

theorem nameValues_settles (g : Graph) (fields : List Field) : g.Settles (g.nameValues fields) := by
  induction fields generalizing g with
  | nil => exact .refl g
  | cons f fields ih =>
    rw [nameValues, List.foldl_cons]
    refine Settles.trans ?_ (ih _)
    split
    · next h => exact setTag_settles (beq_iff_eq.mp h)
    · exact .refl g

/-! ### Merges -/

theorem countP_eq_zero {p : Field → Bool} {fields : List Field} (h : ∀ f ∈ fields, p f = false) :
    fields.countP p = 0 := List.countP_eq_zero.mpr fun f hf => by rw [h f hf]; decide

/-- A mapping without merges of its own holds the merged fields in front of its own. -/
theorem setContent_settles {fields : List Field} (h : ∀ f ∈ fields, g.isMerge f = false) :
    g.Settles (g.setContent id (.mapping fields)) := by
  refine ⟨isMerge_setContent g id _, ?_⟩
  have hcount := mergeCount_setContent_le g id (.mapping fields)
  rw [Content.fields, countP_eq_zero h] at hcount
  omega

/-- Each merge takes a `merge` key away. -/
theorem mergeCount_eraseP_lt {f : Field} (h : (g.fields id).find? g.isMerge = some f) :
    (g.setContent id (.mapping ((g.fields id).eraseP g.isMerge))).mergeCount < g.mergeCount := by
  have hcount := mergeCount_setContent_le g id (.mapping ((g.fields id).eraseP g.isMerge))
  have hlt := countP_eraseP_lt h
  rw [Content.fields] at hcount
  omega

/-- What the fields are that the mappings of a sequence give, if each mapping is merged. -/
theorem mergeItems_ends {fuel : Nat} (items : List NodeId)
    (hmerge : ∀ {g : Graph} {id : NodeId}, g.mergeCount < fuel →
      Ends (g.Merges id) (mergeWithin fuel [] id g)) {added : List Field} (hcount : g.mergeCount < fuel)
    (hadded : ∀ f ∈ added, g.isMerge f = false) :
    Ends (fun r => g.Settles r.2 ∧ ∀ f ∈ r.1, g.isMerge f = false)
      (items.foldlM
        (fun (added, g) item =>
          match g.content item with
          | .mapping _ => do
            let g ← mergeWithin fuel [] item g
            return (g.fields item ++ added, g)
          | _ => throw .badMerge) (added, g)) := by
  induction items generalizing added g with
  | nil => exact ⟨.refl g, hadded⟩
  | cons item items ih =>
    rw [List.foldlM_cons]
    dsimp only
    split
    · rw [bind_assoc]
      refine (hmerge hcount).bind fun g₁ h => ?_
      obtain ⟨hsettles, hfields⟩ := h
      refine (ih (Nat.lt_of_le_of_lt hsettles.count hcount) ?_).mono fun r hr => ?_
      · intro f hf
        rw [hsettles.isMerge]
        exact (List.mem_append.mp hf).elim (hfields f) (hadded f)
      · rw [hsettles.isMerge] at hr
        exact ⟨hsettles.trans hr.1, hr.2⟩
    · exact (nomatch ·)

/-- The merges of a mapping are carried out if there are more steps than `merge` keys. -/
theorem mergeWithin_ends {fuel : Nat} {merged : List Field} (hfuel : g.mergeCount < fuel)
    (hmerged : ∀ f ∈ merged, g.isMerge f = false) :
    Ends (g.Merges id) (mergeWithin fuel merged id g) := by
  induction fuel generalizing g id merged with
  | zero => omega
  | succ fuel ih =>
    unfold mergeWithin
    dsimp only
    split
    · next hnone =>
      have hfields : ∀ f ∈ merged ++ g.fields id, g.isMerge f = false := by
        intro f hf
        rcases List.mem_append.mp hf with hf | hf
        · exact hmerged f hf
        · exact Bool.eq_false_iff.mpr (List.find?_eq_none.mp hnone f hf)
      have hnamed := g.nameValues_settles (g.fields id)
      refine ⟨hnamed.trans (setContent_settles (by rw [hnamed.isMerge]; exact hfields)), ?_⟩
      exact fun f hf => hfields f (mem_fields_setContent hf)
    · next f hsome =>
      have hlt := mergeCount_eraseP_lt hsome
      have hmerge := isMerge_setContent g id (.mapping ((g.fields id).eraseP g.isMerge))
      -- From here on only the number of `merge` keys counts, which is one less.
      generalize g.setContent id (.mapping ((g.fields id).eraseP g.isMerge)) = g₁ at hlt hmerge ⊢
      have hcount : g₁.mergeCount < fuel := by omega
      have hagain : ∀ {added : List Field} {g₂ : Graph}, g₁.Settles g₂ →
          (∀ f ∈ added, g₁.isMerge f = false) →
          Ends (g.Merges id) (mergeWithin fuel (merged ++ added) id g₂) := by
        intro added g₂ h₂ hadded
        have h : g.Settles g₂ := .trans ⟨hmerge, Nat.le_of_lt hlt⟩ h₂
        refine (ih (Nat.lt_of_le_of_lt h₂.count hcount) ?_).mono fun _ h₃ => h.merges h₃
        intro f hf
        rw [h.isMerge]
        rw [hmerge] at hadded
        exact (List.mem_append.mp hf).elim (hmerged f) (hadded f)
      split
      · exact (nomatch ·)
      · exact (ih hcount (by simp)).bind fun g₂ h₂ => hagain h₂.settles h₂.fields
      · next items _ =>
        have hitems := mergeItems_ends items (fun h => ih h (by simp)) hcount
          (List.forall_mem_nil _)
        exact hitems.bind fun r hr => hagain hr.1 hr.2

theorem mergeCount_le_fieldCount (g : Graph) : g.mergeCount ≤ g.fieldCount := by
  rw [mergeCount, fieldCount, ← Array.foldl_toList]
  have hle : ∀ n : Node, n.content.fields.countP g.isMerge ≤ n.content.fields.length :=
    fun _ => List.countP_le_length
  have h := total_le_foldl hle g.nodes.toList 0
  rwa [Nat.zero_add] at h

/-- The steps that a mapping is given are enough to carry out its merges. -/
theorem merge_ends (g : Graph) (id : NodeId) :
    Ends (fun g' => ∀ f ∈ g'.fields id, g'.isMerge f = false) (g.merge id) := by
  have hfuel := Nat.lt_succ_of_le g.mergeCount_le_fieldCount
  exact (mergeWithin_ends hfuel (by simp)).mono fun g' h => by
    rw [h.settles.isMerge]
    exact h.fields

end Graph

end TextMask.Yaml
