import TextMask.Proofs.Yaml.Stream
import TextMask.Yaml.Document

/-!
# Every stream of tokens is read

Each token that a reader of nodes passes over pays for the levels that it opens before the next one,
so four levels for each token are enough.

* `Reader.Goes`: the tokens that were passed over;
* one lemma for each primitive, and for the properties of a node;
* `Reading.Enough`: the levels that each reader of nodes and collections needs;
* `readDocument_ends`: the levels that are given are enough for every text.
-/

namespace TextMask.Yaml

/-- The number of tokens that are left. -/
def Reader.left (r : Reader) : Nat := r.stream.tokens.length

/-- The stream was not cut off for lack of depth. -/
def Reader.Sound (r : Reader) : Prop := r.stream.fault ≠ some .outOfDepth

/-- The reader has passed over at least the given number of tokens of the same stream. -/
structure Reader.Goes (n : Nat) (r r' : Reader) : Prop where
  fault : r'.stream.fault = r.stream.fault
  left : r'.left + n ≤ r.left

variable {r r' r'' : Reader} {n m : Nat}

theorem Reader.left_eq (h : r'.stream = r.stream) : r'.left = r.left :=
  congrArg (fun s => s.tokens.length) h

theorem Reader.Sound.of_stream_eq (hr : r.Sound) (h : r'.stream = r.stream) : r'.Sound := by
  rw [Reader.Sound, h]
  exact hr

namespace Reader.Goes

theorem refl (r : Reader) : r.Goes 0 r := ⟨rfl, Nat.le_refl _⟩

theorem trans (h : r.Goes n r') (h' : r'.Goes m r'') : r.Goes (n + m) r'' :=
  ⟨h'.fault.trans h.fault, by have := h.left; have := h'.left; omega⟩

theorem mono (h : r.Goes n r') (hle : m ≤ n) : r.Goes m r' :=
  ⟨h.fault, by have := h.left; omega⟩

theorem of_stream_eq (h : r'.stream = r.stream) : r.Goes 0 r' :=
  ⟨congrArg Stream.fault h, Nat.le_of_eq (Reader.left_eq h)⟩

theorem sound (h : r.Goes n r') (hr : r.Sound) : r'.Sound := by
  rw [Reader.Sound, h.fault]
  exact hr

end Reader.Goes

/-- What a reading passes over is added to what was passed over before it. -/
theorem EndsWith.after {α : Type} {x : Reading α} {k : Nat} (hx : EndsWith x r' fun _ => r'.Goes m)
    (h : r.Goes n r') (hle : k ≤ n + m) : EndsWith x r' fun _ => r.Goes k :=
  hx.mono fun _ _ h' => (h.trans h').mono hle

namespace Reading

/-! ### Tokens -/

theorem peek_ends (hr : r.Sound) :
    EndsWith peek r fun t r' => r = r' ∧ t = r.stream.tokens.head? := by
  obtain ⟨⟨tokens, fault⟩, handles, graph, anchors⟩ := r
  cases tokens with
  | cons t tokens => exact ⟨rfl, rfl⟩
  | nil =>
    cases fault with
    | none => exact ⟨rfl, rfl⟩
    | some fault => exact fun h => hr (congrArg some h)

theorem modify_ends (f : Reader → Reader) (r : Reader) (h : (f r).stream = r.stream) :
    EndsWith (modify f) r fun _ r' => r'.stream = r.stream := h

theorem skip_ends {t : Token} (ht : r.stream.tokens.head? = some t) :
    EndsWith skip r fun _ => r.Goes 1 := by
  obtain ⟨tokens, htokens⟩ := List.head?_eq_some_iff.mp ht
  refine ⟨rfl, ?_⟩
  change (r.stream.tokens.drop 1).length + 1 ≤ r.stream.tokens.length
  rw [htokens]
  exact Nat.le_refl _

theorem skipIf_ends (t : Token) (hr : r.Sound) :
    EndsWith (skipIf t) r fun b r' =>
      b = (r.stream.tokens.head? == some t) ∧ r.Goes b.toNat r' := by
  refine (peek_ends hr).bind fun next r' h => ?_
  obtain ⟨rfl, rfl⟩ := h
  refine .ite (fun ht => ?_) fun ht => ?_
  · refine (skip_ends (beq_iff_eq.mp ht)).bind fun _ r'' hskip => ?_
    exact ⟨ht.symm, hskip⟩
  · exact ⟨(Bool.eq_false_iff.mpr ht).symm, .refl r⟩

theorem nextIsIn_ends (ts : List Token) (hr : r.Sound) :
    EndsWith (nextIsIn ts) r fun _ r' => r = r' :=
  (peek_ends hr).bind fun _ _ h => h.1

theorem separator_ends (hr : r.Sound) : EndsWith separator r fun _ => r.Goes 1 := by
  refine (skipIf_ends .comma hr).bind fun b r' h => ?_
  cases b with
  | true => exact h.2
  | false => exact (nomatch ·)

/-! ### Nodes of the graph -/

theorem addNode_ends (name : Option Text) (node : Node) (r : Reader) :
    EndsWith (addNode name node) r fun _ r' => r'.stream = r.stream := rfl

theorem addSequence_ends {name : Option Text} {tag : Tag} {items : Reading (List NodeId)}
    (hitems : ∀ r', r'.stream = r.stream → EndsWith items r' fun _ => r'.Goes n) :
    EndsWith (addSequence name tag items) r fun _ => r.Goes n := by
  refine (addNode_ends name _ r).bind fun id r' h => ?_
  refine ((hitems r' h).after (.of_stream_eq h) (Nat.le_add_left n 0)).bind fun items r'' h' => ?_
  exact ⟨h'.fault, h'.left⟩

theorem addMapping_ends {name : Option Text} {tag : Tag} {fields : Reading (List Field)}
    (hfields : ∀ r', r'.stream = r.stream → EndsWith fields r' fun _ => r'.Goes n) :
    EndsWith (addMapping name tag fields) r fun _ => r.Goes n := by
  refine (addNode_ends name _ r).bind fun id r' h => ?_
  refine ((hfields r' h).after (.of_stream_eq h) (Nat.le_add_left n 0)).bind fun fields r'' h' => ?_
  exact ⟨h'.fault, h'.left⟩

/-! ### Properties -/

theorem toNat_or_le (a b : Bool) : (a || b).toNat ≤ a.toNat + b.toNat := by
  cases a <;> cases b <;> decide

theorem anchor?_ends (hr : r.Sound) :
    EndsWith anchor? r fun name => r.Goes name.isSome.toNat := by
  refine (peek_ends hr).bind fun next r' h => ?_
  obtain ⟨rfl, hnext⟩ := h
  split
  · exact (skip_ends hnext.symm).bind fun _ _ h => h
  · exact .refl r

theorem tag?_ends (hr : r.Sound) :
    EndsWith tag? r fun tag => r.Goes tag.isSome.toNat := by
  refine (peek_ends hr).bind fun next r' h => ?_
  obtain ⟨rfl, hnext⟩ := h
  split
  · exact (skip_ends hnext.symm).bind fun _ _ h => h
  · exact .refl r

theorem fullName_ends (tag : Option Text × Text) (r : Reader) :
    EndsWith (fullName tag) r fun _ => r.Goes 0 := by
  obtain ⟨handle, suffix⟩ := tag
  cases handle with
  | none => exact .refl r
  | some handle =>
    refine (get_ends r).bind fun s r' h => ?_
    rw [h.2, ← h.1]
    split
    · exact (nomatch ·)
    · exact .refl r

/-- The properties of a node are tokens that are passed over. -/
theorem properties_ends (hr : r.Sound) :
    EndsWith properties r fun props => r.Goes (props.1.isSome || props.2.isSome).toNat := by
  refine (anchor?_ends hr).bind fun before r₁ h₁ => ?_
  refine (tag?_ends (h₁.sound hr)).bind fun tag r₂ h₂ => ?_
  have h₁₂ := h₁.trans h₂
  cases tag with
  | none =>
    refine .ite (fun h => ?_) fun _ => h₁₂.mono (toNat_or_le _ _)
    rw [Option.isSome_none, Bool.and_false] at h
    cases h
  | some tag =>
    have hname : ∀ {name : Option Text} {r₃ : Reader}, r.Goes 1 r₃ →
        EndsWith (do return (name, some (← fullName tag))) r₃
          fun props => r.Goes (props.1.isSome || props.2.isSome).toNat := fun h₃ =>
      (fullName_ends tag _).bind fun _ _ h => (h₃.trans h).mono (Bool.toNat_le _)
    refine .ite (fun _ => ?_) fun _ => hname (h₁₂.mono (Nat.le_add_left _ _))
    refine (anchor?_ends (h₁₂.sound hr)).bind fun name r₃ h₃ => hname ?_
    exact (h₁₂.trans h₃).mono (Nat.le_trans (Nat.le_add_left _ _) (Nat.le_add_right _ _))

theorem checkAnchor_ends (name : Option Text) (r : Reader) :
    EndsWith (checkAnchor name) r fun _ r' => r = r' := by
  refine (get_ends r).bind fun s r' h => ?_
  exact .ite (fun _ => (nomatch ·)) fun _ => h.1

/-! ### Nodes and collections -/

/-- The levels that are enough for each reader, by the number of tokens that are left. -/
structure Enough (fuel : Nat) : Prop where
  node : ∀ {r : Reader} (block bare : Bool), r.Sound → 4 * r.left + 4 ≤ fuel →
    EndsWith (node block bare fuel) r fun _ => r.Goes 1
  nodeUnless : ∀ {r : Reader} (block bare : Bool) (ends : List Token), r.Sound →
    4 * r.left + 5 ≤ fuel → EndsWith (nodeUnless block bare ends fuel) r fun _ => r.Goes 0
  blockItems : ∀ {r : Reader}, r.Sound → 4 * r.left + 2 ≤ fuel →
    EndsWith (blockItems fuel) r fun _ => r.Goes 0
  bareItems : ∀ {r : Reader}, r.Sound → 4 * r.left + 2 ≤ fuel →
    EndsWith (bareItems fuel) r fun _ =>
      r.Goes (r.stream.tokens.head? == some .item).toNat
  blockFields : ∀ {r : Reader}, r.Sound → 4 * r.left + 2 ≤ fuel →
    EndsWith (blockFields fuel) r fun _ => r.Goes 0
  flowItems : ∀ {r : Reader} (first : Bool), r.Sound → 4 * r.left + 5 ≤ fuel →
    EndsWith (flowItems first fuel) r fun _ => r.Goes 0
  flowFields : ∀ {r : Reader} (first : Bool), r.Sound → 4 * r.left + 5 ≤ fuel →
    EndsWith (flowFields first fuel) r fun _ => r.Goes 0

variable {fuel : Nat}

/-- A collection lies behind the token that begins it. -/
theorem Enough.collection (h : Enough fuel) {next : Option Token} {name tag : Option Text}
    {block : Bool}
    (hbegun : (next == some .openSquare || next == some .openCurly ||
      (block && (next == some .blockSequence || next == some .blockMapping))) = true)
    (hnext : next = r.stream.tokens.head?) (hr : r.Sound) (hfuel : 4 * r.left + 4 ≤ fuel + 1) :
    EndsWith (do
      skip
      if next == some .openSquare then
        addSequence name (collectionTag .seq tag) (Reading.flowItems true fuel)
      else if next == some .openCurly then
        addMapping name (collectionTag .map tag) (Reading.flowFields true fuel)
      else if next == some .blockSequence then
        addSequence name (collectionTag .seq tag) (Reading.blockItems fuel)
      else addMapping name (collectionTag .map tag) (Reading.blockFields fuel)) r
      fun _ => r.Goes 1 := by
  cases next with
  | none => simp at hbegun
  | some t =>
    refine (skip_ends hnext.symm).bind fun _ r₁ h₁ => ?_
    have hr₁ := h₁.sound hr
    have hleft := h₁.left
    have hfuel : ∀ {r₂ : Reader}, r₂.stream = r₁.stream → 4 * r₂.left + 5 ≤ fuel := by
      intro r₂ h₂
      rw [Reader.left_eq h₂]
      omega
    refine EndsWith.after (m := 0) ?_ h₁ (Nat.le_refl _)
    refine .ite (fun _ => addSequence_ends fun r₂ h₂ => ?_) fun _ => ?_
    · exact h.flowItems true (hr₁.of_stream_eq h₂) (hfuel h₂)
    refine .ite (fun _ => addMapping_ends fun r₂ h₂ => ?_) fun _ => ?_
    · exact h.flowFields true (hr₁.of_stream_eq h₂) (hfuel h₂)
    refine .ite (fun _ => addSequence_ends fun r₂ h₂ => ?_) fun _ => addMapping_ends fun r₂ h₂ => ?_
    · exact h.blockItems (hr₁.of_stream_eq h₂) (by have := hfuel h₂; omega)
    · exact h.blockFields (hr₁.of_stream_eq h₂) (by have := hfuel h₂; omega)

/-- A node lies behind its first token. -/
theorem Enough.node_succ (h : Enough fuel) (block bare : Bool) (hr : r.Sound)
    (hfuel : 4 * r.left + 4 ≤ fuel + 1) :
    EndsWith (Reading.node block bare (fuel + 1)) r fun _ => r.Goes 1 := by
  unfold Reading.node
  refine (peek_ends hr).bind fun next r' hnext => ?_
  obtain ⟨rfl, hnext⟩ := hnext
  split
  -- An alias is all there is of the node.
  · refine (skip_ends hnext.symm).bind fun _ r₁ h₁ => ?_
    refine (get_ends r₁).bind fun s r' hs => ?_
    obtain ⟨rfl, rfl⟩ := hs
    split
    · exact (nomatch ·)
    · exact h₁
  -- Otherwise its content comes behind its properties, and is left out only if there are some.
  · refine (properties_ends hr).bind fun props r₁ h₁ => ?_
    have hr₁ := h₁.sound hr
    have hleft := h₁.left
    refine (peek_ends hr₁).bind fun next r' hnext => ?_
    obtain ⟨rfl, hnext⟩ := hnext
    dsimp only
    split
    · refine (checkAnchor_ends _ r₁).bind fun _ r' hr' => ?_
      subst hr'
      refine (skip_ends hnext.symm).bind fun _ r₂ h₂ => ?_
      refine (addNode_ends _ _ r₂).mono fun _ r₃ h₃ => ?_
      exact ((h₁.trans h₂).trans (.of_stream_eq h₃)).mono (by omega)
    · refine .ite (fun hbare => ?_) fun _ => ?_
      -- Nothing is passed over in front of a bare sequence, but its first item is.
      · refine (checkAnchor_ends _ r₁).bind fun _ r' hr' => ?_
        subst hr'
        refine (addSequence_ends fun r₂ h₂ => ?_).after h₁ (m := 1) (by omega)
        have hitem : (r₂.stream.tokens.head? == some .item) = true := by
          rw [h₂, ← hnext]
          exact (Bool.and_eq_true_iff.mp hbare).2
        have hleft₂ := Reader.left_eq h₂
        rw [← Bool.toNat_true, ← hitem]
        exact h.bareItems (hr₁.of_stream_eq h₂) (by omega)
      · refine .ite (fun hbegun => ?_) fun _ => ?_
        · refine (checkAnchor_ends _ r₁).bind fun _ r' hr' => ?_
          subst hr'
          exact (h.collection hbegun hnext hr₁ (by omega)).after h₁ (by omega)
        · refine .ite (fun hprops => ?_) fun _ => ?_
          · refine (checkAnchor_ends _ r₁).bind fun _ r' hr' => ?_
            subst hr'
            refine (addNode_ends _ _ r₁).mono fun _ r₂ h₂ => ?_
            rw [hprops] at h₁
            exact h₁.trans (.of_stream_eq h₂)
          · exact (nomatch ·)

theorem Enough.nodeUnless_succ (h : Enough fuel) (block bare : Bool) (ends : List Token)
    (hr : r.Sound) (hfuel : 4 * r.left + 5 ≤ fuel + 1) :
    EndsWith (Reading.nodeUnless block bare ends (fuel + 1)) r fun _ => r.Goes 0 := by
  unfold Reading.nodeUnless
  refine (nextIsIn_ends ends hr).bind fun b r' hr' => ?_
  subst hr'
  refine .ite (fun _ => ?_) fun _ => ?_
  · exact (addNode_ends _ _ r).mono fun _ _ h => .of_stream_eq h
  · exact (h.node block bare hr (by omega)).mono fun _ _ h => h.mono (Nat.zero_le _)

/-- A field: its name, and its value unless that is left out; then the reading goes on. -/
theorem Enough.field {α : Type} {expected : α → Reader → Prop} {next : NodeId → NodeId → Reading α}
    (h : Enough fuel) (block bare : Bool) (ends ends' : List Token) (hr : r.Sound)
    (hfuel : 4 * r.left + 5 ≤ fuel)
    (hnext : ∀ name value r', r.Goes 0 r' → EndsWith (next name value) r' expected) :
    EndsWith (do
      let name ← Reading.nodeUnless block bare ends fuel
      let value ← if ← skipIf .value then Reading.nodeUnless block bare ends' fuel else addAbsent
      next name value) r expected := by
  refine (h.nodeUnless block bare ends hr hfuel).bind fun name r₁ h₁ => ?_
  have hr₁ := h₁.sound hr
  refine (skipIf_ends .value hr₁).bind fun b r₂ h₂ => ?_
  obtain ⟨-, h₂⟩ := h₂
  have h₁₂ := h₁.trans h₂
  have hleft := h₁₂.left
  refine .ite (fun _ => ?_) fun _ => ?_
  · refine (h.nodeUnless block bare ends' (h₂.sound hr₁) (by omega)).bind fun value r₃ h₃ => ?_
    exact hnext name value r₃ ((h₁₂.trans h₃).mono (Nat.zero_le _))
  · refine (addNode_ends _ _ r₂).bind fun value r₃ h₃ => ?_
    exact hnext name value r₃ ((h₁₂.trans (.of_stream_eq h₃)).mono (Nat.zero_le _))

theorem Enough.blockItems_succ (h : Enough fuel) (hr : r.Sound)
    (hfuel : 4 * r.left + 2 ≤ fuel + 1) :
    EndsWith (Reading.blockItems (fuel + 1)) r fun _ => r.Goes 0 := by
  unfold Reading.blockItems
  refine (skipIf_ends .item hr).bind fun b r₁ h₁ => ?_
  obtain ⟨-, h₁⟩ := h₁
  have hr₁ := h₁.sound hr
  have hleft₁ := h₁.left
  cases b with
  | true =>
    rw [Bool.toNat_true] at hleft₁
    refine (h.nodeUnless true false _ hr₁ (by omega)).bind fun n r₂ h₂ => ?_
    have hleft₂ := h₂.left
    refine (h.blockItems (h₂.sound hr₁) (by omega)).bind fun ns r₃ h₃ => ?_
    exact ((h₁.trans h₂).trans h₃).mono (Nat.zero_le _)
  | false =>
    refine (skipIf_ends .blockEnd hr₁).bind fun b r₂ h₂ => ?_
    cases b with
    | true => exact (h₁.trans h₂.2).mono (Nat.zero_le _)
    | false => exact (nomatch ·)

theorem Enough.bareItems_succ (h : Enough fuel) (hr : r.Sound)
    (hfuel : 4 * r.left + 2 ≤ fuel + 1) :
    EndsWith (Reading.bareItems (fuel + 1)) r fun _ =>
      r.Goes (r.stream.tokens.head? == some .item).toNat := by
  unfold Reading.bareItems
  refine (skipIf_ends .item hr).bind fun b r₁ h₁ => ?_
  obtain ⟨hb, h₁⟩ := h₁
  rw [← hb]
  have hr₁ := h₁.sound hr
  have hleft₁ := h₁.left
  cases b with
  | true =>
    rw [Bool.toNat_true] at hleft₁
    refine (h.nodeUnless true false _ hr₁ (by omega)).bind fun n r₂ h₂ => ?_
    have hleft₂ := h₂.left
    refine (h.bareItems (h₂.sound hr₁) (by omega)).bind fun ns r₃ h₃ => ?_
    exact ((h₁.trans h₂).trans h₃).mono (Nat.le_add_right _ _)
  | false => exact h₁

theorem Enough.blockFields_succ (h : Enough fuel) (hr : r.Sound)
    (hfuel : 4 * r.left + 2 ≤ fuel + 1) :
    EndsWith (Reading.blockFields (fuel + 1)) r fun _ => r.Goes 0 := by
  unfold Reading.blockFields
  refine (skipIf_ends .key hr).bind fun b r₁ h₁ => ?_
  obtain ⟨-, h₁⟩ := h₁
  have hr₁ := h₁.sound hr
  have hleft₁ := h₁.left
  cases b with
  | true =>
    rw [Bool.toNat_true] at hleft₁
    refine h.field true true _ _ hr₁ (by omega) fun name value r₂ h₂ => ?_
    have hleft₂ := h₂.left
    refine (h.blockFields (h₂.sound hr₁) (by omega)).bind fun fields r₃ h₃ => ?_
    exact ((h₁.trans h₂).trans h₃).mono (Nat.zero_le _)
  | false =>
    refine (skipIf_ends .blockEnd hr₁).bind fun b r₂ h₂ => ?_
    cases b with
    | true => exact (h₁.trans h₂.2).mono (Nat.zero_le _)
    | false => exact (nomatch ·)

/-- An item in brackets and those behind it. -/
theorem Enough.flowItem (h : Enough fuel) (hr : r.Sound) (hfuel : 4 * r.left + 4 ≤ fuel) :
    EndsWith (do
      if ← skipIf .key then
        let pair ← addMapping none .map do
          let name ← Reading.nodeUnless false false [.value, .comma, .closeSquare] fuel
          let value ←
            if ← skipIf .value then Reading.nodeUnless false false [.comma, .closeSquare] fuel
            else addAbsent
          return [⟨name, value⟩]
        return pair :: (← Reading.flowItems false fuel)
      else if ← skipIf .closeSquare then return []
      else
        let n ← Reading.node false false fuel
        return n :: (← Reading.flowItems false fuel)) r fun _ => r.Goes 0 := by
  refine (skipIf_ends .key hr).bind fun b r₁ h₁ => ?_
  obtain ⟨-, h₁⟩ := h₁
  have hr₁ := h₁.sound hr
  have hleft₁ := h₁.left
  cases b with
  | true =>
    rw [Bool.toNat_true] at hleft₁
    refine (addMapping_ends (n := 0) fun r' h' => ?_).bind fun pair r₂ h₂ => ?_
    · have hleft' := Reader.left_eq h'
      exact h.field false false _ _ (hr₁.of_stream_eq h') (by omega) fun _ _ _ h₂ => h₂
    · have hleft₂ := h₂.left
      refine (h.flowItems false (h₂.sound hr₁) (by omega)).bind fun ns r₃ h₃ => ?_
      exact ((h₁.trans h₂).trans h₃).mono (Nat.zero_le _)
  | false =>
    refine (skipIf_ends .closeSquare hr₁).bind fun b r₂ h₂ => ?_
    obtain ⟨-, h₂⟩ := h₂
    have h₁₂ := h₁.trans h₂
    have hleft₂ := h₁₂.left
    cases b with
    | true => exact h₁₂.mono (Nat.zero_le _)
    | false =>
      refine (h.node false false (h₂.sound hr₁) (by omega)).bind fun n r₃ h₃ => ?_
      have hleft₃ := h₃.left
      refine (h.flowItems false (h₃.sound (h₂.sound hr₁)) (by omega)).bind fun ns r₄ h₄ => ?_
      exact ((h₁₂.trans h₃).trans h₄).mono (Nat.zero_le _)

theorem Enough.flowItems_succ (h : Enough fuel) (first : Bool) (hr : r.Sound)
    (hfuel : 4 * r.left + 5 ≤ fuel + 1) :
    EndsWith (Reading.flowItems first (fuel + 1)) r fun _ => r.Goes 0 := by
  unfold Reading.flowItems
  refine (skipIf_ends .closeSquare hr).bind fun b r₁ h₁ => ?_
  obtain ⟨-, h₁⟩ := h₁
  have hr₁ := h₁.sound hr
  have hleft₁ := h₁.left
  refine .ite (fun _ => h₁.mono (Nat.zero_le _)) fun _ => ?_
  refine .ite (fun _ => ?_) fun _ => ?_
  · exact (h.flowItem hr₁ (by omega)).after h₁ (Nat.zero_le _)
  · refine (separator_ends hr₁).bind fun _ r₂ h₂ => ?_
    have hleft₂ := h₂.left
    exact (h.flowItem (h₂.sound hr₁) (by omega)).after (h₁.trans h₂) (Nat.zero_le _)

/-- A field in curly brackets and those behind it. -/
theorem Enough.flowField (h : Enough fuel) (hr : r.Sound) (hfuel : 4 * r.left + 4 ≤ fuel) :
    EndsWith (do
      if ← skipIf .key then
        let name ← Reading.nodeUnless false false [.value, .comma, .closeCurly] fuel
        let value ←
          if ← skipIf .value then Reading.nodeUnless false false [.comma, .closeCurly] fuel
          else addAbsent
        return ⟨name, value⟩ :: (← Reading.flowFields false fuel)
      else if ← skipIf .closeCurly then return []
      else
        let name ← Reading.node false false fuel
        let value ← addAbsent
        return Field.mk name value :: (← Reading.flowFields false fuel)) r fun _ => r.Goes 0 := by
  refine (skipIf_ends .key hr).bind fun b r₁ h₁ => ?_
  obtain ⟨-, h₁⟩ := h₁
  have hr₁ := h₁.sound hr
  have hleft₁ := h₁.left
  cases b with
  | true =>
    rw [Bool.toNat_true] at hleft₁
    refine h.field false false _ _ hr₁ (by omega) fun name value r₂ h₂ => ?_
    have hleft₂ := h₂.left
    refine (h.flowFields false (h₂.sound hr₁) (by omega)).bind fun fields r₃ h₃ => ?_
    exact ((h₁.trans h₂).trans h₃).mono (Nat.zero_le _)
  | false =>
    refine (skipIf_ends .closeCurly hr₁).bind fun b r₂ h₂ => ?_
    obtain ⟨-, h₂⟩ := h₂
    have hr₂ := h₂.sound hr₁
    have h₁₂ := h₁.trans h₂
    have hleft₂ := h₁₂.left
    cases b with
    | true => exact h₁₂.mono (Nat.zero_le _)
    | false =>
      refine (h.node false false hr₂ (by omega)).bind fun name r₃ h₃ => ?_
      refine (addNode_ends _ _ r₃).bind fun value r₄ h₄ => ?_
      have hr₄ := (h₃.sound hr₂).of_stream_eq h₄
      have hleft₃ := h₃.left
      have hleft₄ := Reader.left_eq h₄
      refine (h.flowFields false hr₄ (by omega)).bind fun fields r₅ h₅ => ?_
      exact ((h₁₂.trans h₃).trans (.trans (.of_stream_eq h₄) h₅)).mono (Nat.zero_le _)

theorem Enough.flowFields_succ (h : Enough fuel) (first : Bool) (hr : r.Sound)
    (hfuel : 4 * r.left + 5 ≤ fuel + 1) :
    EndsWith (Reading.flowFields first (fuel + 1)) r fun _ => r.Goes 0 := by
  unfold Reading.flowFields
  refine (skipIf_ends .closeCurly hr).bind fun b r₁ h₁ => ?_
  obtain ⟨-, h₁⟩ := h₁
  have hr₁ := h₁.sound hr
  have hleft₁ := h₁.left
  refine .ite (fun _ => h₁.mono (Nat.zero_le _)) fun _ => ?_
  refine .ite (fun _ => ?_) fun _ => ?_
  · exact (h.flowField hr₁ (by omega)).after h₁ (Nat.zero_le _)
  · refine (separator_ends hr₁).bind fun _ r₂ h₂ => ?_
    have hleft₂ := h₂.left
    exact (h.flowField (h₂.sound hr₁) (by omega)).after (h₁.trans h₂) (Nat.zero_le _)

/-- Four levels for each token are enough for every reader. -/
theorem enough (fuel : Nat) : Enough fuel := by
  induction fuel with
  | zero => constructor <;> intros <;> omega
  | succ fuel ih =>
    exact {
      node := fun block bare hr hfuel => ih.node_succ block bare hr hfuel
      nodeUnless := fun block bare ends hr hfuel => ih.nodeUnless_succ block bare ends hr hfuel
      blockItems := fun hr hfuel => ih.blockItems_succ hr hfuel
      bareItems := fun hr hfuel => ih.bareItems_succ hr hfuel
      blockFields := fun hr hfuel => ih.blockFields_succ hr hfuel
      flowItems := fun first hr hfuel => ih.flowItems_succ first hr hfuel
      flowFields := fun first hr hfuel => ih.flowFields_succ first hr hfuel }

/-! ### Streams -/

theorem directives_ends {versionTold : Bool} {handles : List (Text × Text)} (hr : r.Sound)
    (hfuel : r.left < fuel) :
    EndsWith (directives versionTold handles fuel) r fun _ => r.Goes 0 := by
  induction fuel generalizing versionTold handles r with
  | zero => omega
  | succ fuel ih =>
    unfold directives
    refine (peek_ends hr).bind fun next r' hnext => ?_
    obtain ⟨rfl, hnext⟩ := hnext
    split
    · refine (skip_ends hnext.symm).bind fun _ r₁ h₁ => ?_
      have hleft := h₁.left
      have hon : ∀ (versionTold : Bool) (handles : List (Text × Text)),
          EndsWith (directives versionTold handles fuel) r₁ fun _ => r.Goes 0 := fun _ _ =>
        (ih (h₁.sound hr) (by omega)).after h₁ (Nat.zero_le _)
      split
      · refine .ite (fun _ => (nomatch ·)) fun _ => ?_
        exact .ite (fun _ => (nomatch ·)) fun _ => hon _ _
      · exact .ite (fun _ => (nomatch ·)) fun _ => hon _ _
      · exact hon _ _
    · exact .refl r

theorem documentHead_ends (hr : r.Sound) (hfuel : r.left < fuel) :
    EndsWith (documentHead fuel) r fun _ => r.Goes 0 := by
  unfold documentHead
  refine (directives_ends hr hfuel).bind fun handles r₁ h₁ => ?_
  refine (skipIf_ends .documentStart (h₁.sound hr)).bind fun b r₂ h₂ => ?_
  refine .ite (fun _ => ?_) fun _ => (nomatch ·)
  exact (modify_ends _ r₂ rfl).mono fun _ r₃ h₃ =>
    ((h₁.trans h₂.2).trans (.of_stream_eq h₃)).mono (Nat.zero_le _)

theorem documentEnds_ends (fuel : Nat) (hr : r.Sound) :
    EndsWith (documentEnds fuel) r fun _ => r.Goes 0 := by
  induction fuel generalizing r with
  | zero => exact .refl r
  | succ fuel ih =>
    unfold documentEnds
    refine (skipIf_ends .documentEnd hr).bind fun b r₁ h₁ => ?_
    refine .ite (fun _ => ?_) fun _ => h₁.2.mono (Nat.zero_le _)
    exact (ih (h₁.2.sound hr)).after h₁.2 (Nat.zero_le _)

theorem atDocumentEnd_ends (hr : r.Sound) : EndsWith atDocumentEnd r fun _ r' => r = r' := by
  refine (peek_ends hr).bind fun next r' h => ?_
  obtain ⟨rfl, -⟩ := h
  split <;> rfl

/-- Behind the only document nothing but end marks may follow. -/
theorem documentRest_ends {root : NodeId} (hr : r.Sound) (hfuel : r.left < fuel) :
    EndsWith (do
      documentEnds fuel
      if (← peek).isSome then
        documentHead fuel
        throw .secondDocument
      return some root) r fun _ => r.Goes 0 := by
  refine (documentEnds_ends fuel hr).bind fun _ r₁ h₁ => ?_
  have hr₁ := h₁.sound hr
  have hleft := h₁.left
  refine (peek_ends hr₁).bind fun next r' hnext => ?_
  obtain ⟨rfl, -⟩ := hnext
  refine .ite (fun _ => ?_) fun _ => h₁
  exact (documentHead_ends hr₁ (by omega)).bind fun _ _ _ => (nomatch ·)

theorem document_ends (hr : r.Sound) (hfuel : 4 * r.left + 4 ≤ fuel) :
    EndsWith (document fuel) r fun _ => r.Goes 0 := by
  have hnode : ∀ {r₁ : Reader}, r.Goes 0 r₁ → EndsWith (do
      let root ← node true false fuel
      documentEnds fuel
      if (← peek).isSome then
        documentHead fuel
        throw .secondDocument
      return some root) r₁ fun _ => r.Goes 0 := by
    intro r₁ h₁
    have hr₁ := h₁.sound hr
    have hleft₁ := h₁.left
    refine ((enough fuel).node true false hr₁ (by omega)).bind fun root r₂ h₂ => ?_
    have hleft₂ := h₂.left
    exact (documentRest_ends (h₂.sound hr₁) (by omega)).after (h₁.trans h₂) (Nat.zero_le _)
  have hhead : EndsWith (do
      documentHead fuel
      let root ← if ← atDocumentEnd then addAbsent else node true false fuel
      documentEnds fuel
      if (← peek).isSome then
        documentHead fuel
        throw .secondDocument
      return some root) r fun _ => r.Goes 0 := by
    refine (documentHead_ends hr (by omega)).bind fun _ r₁ h₁ => ?_
    have hr₁ := h₁.sound hr
    have hleft₁ := h₁.left
    refine (atDocumentEnd_ends hr₁).bind fun b r' hr' => ?_
    subst hr'
    refine .ite (fun _ => ?_) fun _ => hnode h₁
    refine (addNode_ends _ _ r₁).bind fun root r₂ h₂ => ?_
    have hleft₂ := Reader.left_eq h₂
    exact (documentRest_ends (hr₁.of_stream_eq h₂) (by omega)).after (h₁.trans (.of_stream_eq h₂))
      (Nat.zero_le _)
  unfold document
  refine (peek_ends hr).bind fun next r' hnext => ?_
  obtain ⟨rfl, -⟩ := hnext
  cases next with
  | none => exact .refl r
  | some t =>
    dsimp only
    split
    · exact hhead
    · exact hhead
    · exact (modify_ends _ r rfl).bind fun _ r₁ h₁ => hnode (.of_stream_eq h₁)

end Reading

/-- The levels that a text is given are enough to read its document. -/
theorem readDocument_ends (text : Text) : Ends (fun _ => True) (readDocument text) := by
  have hr : Reader.Sound { stream := stream text } := stream_fault_ne_outOfDepth text
  exact Ends.bind (Reading.document_ends hr (Nat.le_refl _)) fun _ _ => trivial

end TextMask.Yaml
