import TextMask.Proofs.Yaml.Document
import TextMask.Proofs.Yaml.Merge
import TextMask.Yaml.Data

/-!
# Every document has data or a fault

A walk over a graph meets each node once and opens each collection once, so there are no more rounds
than nodes. With this nothing on the way from a text to its data ever lacks depth.

* `Value.ofText_ends`: a scalar has a value or a fault of its own;
* `Walk.pending`: the nodes that are still to be met, or to be opened;
* `Walking.openAll_ends`: the rounds that are given are enough;
* `document_ne_outOfDepth`: so are all the steps that a text is given.
-/

namespace TextMask.Yaml

section

variable {α β : Type}

theorem Ends.map {x : Except Fault α} (f : α → β) (hx : Ends (fun _ => True) x) :
    Ends (fun _ => True) (f <$> x) := hx.bind fun _ _ => trivial

theorem foldlM_ends {f : β → α → Except Fault β} (h : ∀ b a, Ends (fun _ => True) (f b a))
    (l : List α) (b : β) : Ends (fun _ => True) (l.foldlM f b) := by
  induction l generalizing b with
  | nil => trivial
  | cons a l ih =>
    rw [List.foldlM_cons]
    exact (h b a).bind fun b' _ => ih b'

theorem mapM_ends {f : α → Except Fault β} (h : ∀ a, Ends (fun _ => True) (f a)) (l : List α) :
    Ends (fun _ => True) (l.mapM f) := by
  induction l with
  | nil => trivial
  | cons a l ih =>
    rw [List.mapM_cons]
    exact (h a).bind fun _ _ => ih.bind fun _ _ => trivial

end

/-! ### Values -/

namespace Value

theorem ofNumber_ends {α : Type} (answer : Except NumberFault α) :
    Ends (fun _ => True) (ofNumber answer) := by
  cases answer with
  | ok a => trivial
  | error fault => exact (nomatch ·)

theorem integer_ends (t : Text) : Ends (fun _ => True) (integer t) := by
  have hsize : ∀ t, Ends (fun _ => True) (integerSize t) := by
    intro t
    unfold integerSize
    split
    · exact (nomatch ·)
    · trivial
    · exact ofNumber_ends _
    · exact ofNumber_ends _
    · exact ofNumber_ends _
    · refine foldlM_ends (fun _ _ => ?_) _ _
      exact (ofNumber_ends _).bind fun _ _ => trivial
  exact (hsize _).bind fun _ _ => trivial

theorem placeWeight_ends (place : Nat) : Ends (fun _ => True) (placeWeight place) := by
  unfold placeWeight
  exact .ite (fun _ => (nomatch ·)) fun _ => trivial

theorem real_ends (t : Text) : Ends (fun _ => True) (real t) := by
  have hsize : ∀ t, Ends (fun _ => True) (realSize t) := by
    intro t
    unfold realSize
    split
    · trivial
    · trivial
    · refine (mapM_ends (fun _ => ofNumber_ends _) _).bind fun places _ => ?_
      refine foldlM_ends (fun _ _ => ?_) _ _
      exact (placeWeight_ends _).bind fun _ _ => trivial
  unfold real
  refine .ite (fun _ => (nomatch ·)) fun _ => ?_
  exact (hsize _).bind fun _ _ => trivial

theorem truth_ends (t : Text) : Ends (fun _ => True) (truth t) := by
  unfold truth
  dsimp only
  split <;> first | trivial | exact (nomatch ·)

theorem bytes_ends (t : Text) : Ends (fun _ => True) (bytes t) := by
  unfold bytes
  refine .ite (fun _ => ?_) fun _ => (nomatch ·)
  split
  · trivial
  · exact (nomatch ·)

theorem timestamp_ends (t : Text) : Ends (fun _ => True) (timestamp t) := by
  unfold timestamp
  split
  · exact (nomatch ·)
  · next s _ =>
    cases s.check with
    | ok _ => trivial
    | error fault => exact (nomatch ·)

/-- A scalar has a value, or a fault that tells why it has none. -/
theorem ofText_ends (t : Text) (tag : Tag) : Ends (fun _ => True) (ofText t tag) := by
  cases tag with
  | bool => exact (truth_ends t).map _
  | int => exact (integer_ends t).map _
  | float => exact (real_ends t).map _
  | binary => exact (bytes_ends t).map _
  | timestamp => exact (timestamp_ends t).map _
  | null | str | seq | map | set | pairs => trivial
  | merge | value | unknown => exact (nomatch ·)

end Value

theorem Graph.scalarText_ends (g : Graph) (id : NodeId) :
    Ends (fun _ => True) (g.scalarText id) := by
  have hwithin : ∀ fuel id, Ends (fun _ => True) (g.scalarTextWithin fuel id) := by
    intro fuel
    induction fuel with
    | zero => exact fun _ => (nomatch ·)
    | succ fuel ih =>
      intro id
      unfold scalarTextWithin
      split
      · trivial
      · exact (nomatch ·)
      · split
        · exact ih _
        · exact (nomatch ·)
  exact hwithin _ id

/-! ### Walks -/

/-- The nodes that are still to be met, and the collections that are still to be opened. -/
def Walk.pending (w : Walk) : Nat := w.noted.length + w.met.toList.countP (!·)

namespace Walking

variable {w w' : Walk}

theorem lift_ends {α : Type} {x : Except Fault α} {expected : α → Prop} (hx : Ends expected x) :
    EndsWith (liftM x : Walking α) w fun a w' => expected a ∧ w' = w :=
  hx.bind fun _ h => ⟨h, rfl⟩

theorem scalar_ends (g : Graph) (id : NodeId) : Ends (fun _ => True) (scalar g id) := by
  unfold scalar
  refine .ite (fun _ => (nomatch ·)) fun _ => ?_
  refine (g.scalarText_ends id).bind fun text _ => ?_
  split
  · exact (nomatch ·)
  · exact Value.ofText_ends _ _

/-- To meet a node for the first time takes it from those that are still to be met. -/
theorem countP_setIfInBounds {met : Array Bool} {id : NodeId} (h : met[id]? = some false) :
    (met.setIfInBounds id true).toList.countP (!·) + 1 = met.toList.countP (!·) := by
  obtain ⟨hlt, hget⟩ := Array.getElem?_eq_some_iff.mp h
  have hpos : 0 < met.toList.countP (!·) :=
    List.countP_pos_iff.mpr ⟨false, hget ▸ Array.getElem_mem_toList hlt, rfl⟩
  rw [Array.toList_setIfInBounds, List.countP_set (Array.length_toList ▸ hlt), Array.getElem_toList,
    hget, if_pos (by rfl), if_neg (by decide)]
  omega

theorem visit_ends (id : NodeId) (w : Walk) :
    EndsWith (visit id) w fun _ w' => w'.pending ≤ w.pending := by
  unfold visit
  refine (get_ends w).bind fun s w' h => ?_
  rw [h.2, ← h.1]
  refine .ite (fun _ => Nat.le_refl _) fun hmet => ?_
  have hfirst : w.met[id]? = some false := by
    cases hid : w.met[id]? with
    | none => rw [hid] at hmet; exact absurd rfl hmet
    | some b =>
      cases b with
      | true => rw [hid] at hmet; exact absurd rfl hmet
      | false => rfl
  have hcount := countP_setIfInBounds hfirst
  refine .ite (fun _ => ?_) fun _ => ?_
  · change (id :: w.noted).length + (w.met.setIfInBounds id true).toList.countP (!·) ≤ w.pending
    rw [Walk.pending, List.length_cons]
    omega
  · refine (lift_ends (scalar_ends _ _)).bind fun d w' h => ?_
    change w.noted.length + (w.met.setIfInBounds id true).toList.countP (!·) ≤ w.pending
    rw [Walk.pending]
    omega

theorem visitField_ends (f : Field) (w : Walk) :
    EndsWith (visitField f) w fun _ w' => w'.pending ≤ w.pending := by
  unfold visitField
  refine (visit_ends f.name w).bind fun _ w₁ h₁ => ?_
  refine (get_ends w₁).bind fun s w' h => ?_
  rw [← h.1]
  refine .ite (fun _ => (nomatch ·)) fun _ => ?_
  exact (visit_ends f.value w₁).mono fun _ _ h₂ => Nat.le_trans h₂ h₁

theorem visitPair_ends (id : NodeId) (w : Walk) :
    EndsWith (visitPair id) w fun _ w' => w'.pending ≤ w.pending := by
  unfold visitPair
  refine (get_ends w).bind fun s w' h => ?_
  rw [h.2, ← h.1]
  split
  · next f _ =>
    refine (visit_ends f.name w).bind fun _ w₁ h₁ => ?_
    exact (visit_ends f.value w₁).mono fun _ _ h₂ => Nat.le_trans h₂ h₁
  · exact (nomatch ·)

theorem forM_ends {α : Type} {f : α → Walking Unit}
    (h : ∀ a w, EndsWith (f a) w fun _ w' => w'.pending ≤ w.pending) (l : List α) (w : Walk) :
    EndsWith (l.forM f) w fun _ w' => w'.pending ≤ w.pending := by
  induction l generalizing w with
  | nil => exact Nat.le_refl _
  | cons a l ih =>
    exact (h a w).bind fun _ w₁ h₁ => (ih w₁).mono fun _ _ h₂ => Nat.le_trans h₂ h₁

theorem openNode_ends (id : NodeId) (w : Walk) :
    EndsWith (openNode id) w fun _ w' => w'.pending ≤ w.pending := by
  have hmapping : EndsWith (do
      let g ← w.graph.merge id
      modify fun w => { w with graph := g }
      (g.fields id).forM visitField) w fun _ w' => w'.pending ≤ w.pending := by
    refine (lift_ends (w.graph.merge_ends id)).bind fun g w' h => ?_
    rw [h.2]
    exact forM_ends visitField_ends _ { w with graph := g }
  unfold openNode
  refine (get_ends w).bind fun s w' h => ?_
  rw [h.2, ← h.1]
  dsimp only
  split
  · exact forM_ends visit_ends _ w
  · exact forM_ends visitPair_ends _ w
  · exact hmapping
  · exact hmapping
  · exact (nomatch ·)

/-- Each round opens collections that were met before it, so there are no more rounds than nodes. -/
theorem openAll_ends {fuel : Nat} (hfuel : w.pending < fuel) :
    EndsWith (openAll fuel) w fun _ _ => True := by
  induction fuel generalizing w with
  | zero => omega
  | succ fuel ih =>
    unfold openAll
    refine (get_ends w).bind fun s w' h => ?_
    rw [h.2, ← h.1]
    refine .ite (fun _ => trivial) fun hnoted => ?_
    have hlt : Walk.pending { w with noted := [] } < w.pending := by
      have hlength : 0 < w.noted.length := by
        cases hw : w.noted with
        | nil => rw [hw] at hnoted; exact absurd rfl hnoted
        | cons id ids => exact Nat.succ_pos _
      exact Nat.add_lt_add_right hlength _
    have hround := forM_ends openNode_ends w.noted.reverse { w with noted := [] }
    exact hround.bind fun _ w₁ h₁ => ih (by omega)

end Walking

theorem pending_start (g : Graph) : (Walk.start g).pending = g.nodes.size := by
  rw [Walk.pending, Walk.start, Array.toList_replicate, List.countP_replicate]
  exact Nat.zero_add _

/-- The steps that a text is given are enough to find its data or its fault. -/
theorem document_ne_outOfDepth (text : Text) : document text ≠ .error .outOfDepth := by
  have hdocument : Ends (fun _ => True) (document text) := by
    unfold document
    refine (readDocument_ends text).bind fun r _ => ?_
    split
    · trivial
    · next root g =>
      have hwalk : EndsWith (do
          Walking.visit root
          Walking.openAll (g.nodes.size + 1)) (Walk.start g) fun _ _ => True := by
        refine (Walking.visit_ends root _).bind fun _ w h => Walking.openAll_ends ?_
        rw [pending_start] at h
        omega
      exact Ends.bind hwalk fun _ _ => trivial
  intro h
  rw [h] at hdocument
  exact hdocument rfl

end TextMask.Yaml
