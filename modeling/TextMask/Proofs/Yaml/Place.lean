import TextMask.Yaml.Place

/-!
# Going on in a YAML stream

A reader of a stream passes over characters and never goes back. So the place where it ends is
reached from the place where it began, and what is left to read bounds the steps that it can take.

* `Place.Reaches`, `Place.Passes`: a place further on, and one behind at least one character;
* `Place.Sound`: the number of characters that are left is known;
* `Ends`, `EndsWith`: how a reading ends, and that it never ends for lack of depth;
* one lemma for each way to go on: `Reaches.span`, `Reaches.skip`, `Place.lineBreak?_passes`,
  `Place.finishLine_ends`.
-/

namespace TextMask.Yaml

/-- The reading gives what is expected, or fails for another reason than lack of depth. -/
def Ends {α : Type} (expected : α → Prop) : Except Fault α → Prop
  | .ok a => expected a
  | .error fault => fault ≠ .outOfDepth

section

variable {α β : Type} {expected : α → Prop} {expected' : β → Prop} {x : Except Fault α}

theorem Ends.bind {f : α → Except Fault β} (hx : Ends expected x)
    (hf : ∀ a, expected a → Ends expected' (f a)) : Ends expected' (x >>= f) := by
  cases x with
  | ok a => exact hf a hx
  | error fault => exact hx

theorem Ends.mono {weaker : α → Prop} (hx : Ends expected x) (h : ∀ a, expected a → weaker a) :
    Ends weaker x := by
  cases x with
  | ok a => exact h a hx
  | error fault => exact hx

theorem Ends.ite {c : Prop} [Decidable c] {x y : Except Fault α} (hx : c → Ends expected x)
    (hy : ¬c → Ends expected y) : Ends expected (if c then x else y) := by
  split
  · next h => exact hx h
  · next h => exact hy h

end

/-- The reading, begun in the given state, gives a value and a state that are expected, or fails for
another reason than lack of depth. -/
def EndsWith {σ α : Type} (x : StateT σ (Except Fault) α) (s : σ) (expected : α → σ → Prop) :
    Prop :=
  Ends (fun r => expected r.1 r.2) (x.run s)

section

variable {σ α β : Type} {x : StateT σ (Except Fault) α} {s : σ} {expected : α → σ → Prop}

theorem EndsWith.bind {f : α → StateT σ (Except Fault) β} {expected' : β → σ → Prop}
    (hx : EndsWith x s expected) (hf : ∀ a s', expected a s' → EndsWith (f a) s' expected') :
    EndsWith (x >>= f) s expected' :=
  Ends.bind hx fun r hr => hf r.1 r.2 hr

theorem EndsWith.mono {weaker : α → σ → Prop} (hx : EndsWith x s expected)
    (h : ∀ a s', expected a s' → weaker a s') : EndsWith x s weaker :=
  Ends.mono hx fun r hr => h r.1 r.2 hr

theorem EndsWith.ite {c : Prop} [Decidable c] {y : StateT σ (Except Fault) α}
    (hx : c → EndsWith x s expected) (hy : ¬c → EndsWith y s expected) :
    EndsWith (if c then x else y) s expected := by
  split
  · next h => exact hx h
  · next h => exact hy h

theorem get_ends (s : σ) :
    EndsWith (get : StateT σ (Except Fault) σ) s fun r s' => s = s' ∧ r = s := ⟨rfl, rfl⟩

end

namespace Place

/-- The number of characters that are left is the number that is told. -/
def Sound (p : Place) : Prop := p.left = p.rest.length

/-- The place lies some characters further on. -/
def Reaches (p q : Place) : Prop := ∃ n, q = p.advanceBy n

/-- The place lies behind the next character, or further on. -/
def Passes (p q : Place) : Prop := p.rest ≠ [] ∧ p.advance.Reaches q

variable {p q r : Place}

/-! ### Single characters -/

theorem advance_eq_self (h : p.rest = []) : p.advance = p := by
  rw [advance, h]

theorem Sound.advance (h : p.Sound) : p.advance.Sound := by
  unfold Place.advance
  split
  · exact h
  · next c rest hrest =>
    have hleft : p.left = rest.length + 1 := by rw [h, hrest, List.length_cons]
    split
    · exact show p.left - 1 = rest.length by omega
    · exact show p.left - 1 = rest.length by omega

/-- Behind a character one less is left. -/
theorem Sound.advance_left (h : p.Sound) (hne : p.rest ≠ []) : p.advance.left + 1 = p.left := by
  unfold Place.advance
  split
  · next hnil => exact absurd hnil hne
  · next c rest hrest =>
    have hleft : p.left = rest.length + 1 := by rw [h, hrest, List.length_cons]
    split
    · exact show p.left - 1 + 1 = p.left by omega
    · exact show p.left - 1 + 1 = p.left by omega

/-! ### Further on -/

theorem advanceBy_add (p : Place) (n m : Nat) :
    p.advanceBy (n + m) = (p.advanceBy n).advanceBy m := by
  induction n generalizing p with
  | zero => rw [Nat.zero_add, advanceBy]
  | succ n ih =>
    rw [Nat.add_right_comm]
    exact ih p.advance

theorem Reaches.refl (p : Place) : p.Reaches p := ⟨0, rfl⟩

theorem Reaches.trans (h : p.Reaches q) (h' : q.Reaches r) : p.Reaches r := by
  obtain ⟨n, rfl⟩ := h
  obtain ⟨m, rfl⟩ := h'
  exact ⟨n + m, (p.advanceBy_add n m).symm⟩

theorem Reaches.advanceBy (p : Place) (n : Nat) : p.Reaches (p.advanceBy n) := ⟨n, rfl⟩

theorem Reaches.advance (p : Place) : p.Reaches p.advance := ⟨1, rfl⟩

theorem Reaches.span (p : Place) (f : Char → Bool) : p.Reaches (p.span f).2 := ⟨_, rfl⟩

theorem Reaches.skip (p : Place) (f : Char → Bool) : p.Reaches (p.skip f) := ⟨_, rfl⟩

theorem Reaches.sound (h : p.Reaches q) (hp : p.Sound) : q.Sound := by
  obtain ⟨n, rfl⟩ := h
  induction n generalizing p with
  | zero => exact hp
  | succ n ih => exact ih hp.advance

theorem Reaches.left_le (h : p.Reaches q) (hp : p.Sound) : q.left ≤ p.left := by
  obtain ⟨n, rfl⟩ := h
  induction n generalizing p with
  | zero => exact Nat.le_refl _
  | succ n ih =>
    have hle := ih hp.advance
    rw [Place.advanceBy]
    by_cases hne : p.rest = []
    · rw [advance_eq_self hne] at hle ⊢
      exact hle
    · have hleft := hp.advance_left hne
      omega

/-! ### Behind a character -/

theorem Passes.reaches (h : p.Passes q) : p.Reaches q := (Reaches.advance p).trans h.2

theorem Passes.left_lt (h : p.Passes q) (hp : p.Sound) : q.left < p.left := by
  have hle := h.2.left_le hp.advance
  have hlt := hp.advance_left h.1
  omega

theorem Passes.trans_reaches (h : p.Passes q) (h' : q.Reaches r) : p.Passes r :=
  ⟨h.1, h.2.trans h'⟩

theorem Reaches.rest_ne_nil (h : p.Reaches q) (hq : q.rest ≠ []) : p.rest ≠ [] := by
  obtain ⟨n, rfl⟩ := h
  induction n generalizing p with
  | zero => exact hq
  | succ n ih =>
    intro hnil
    rw [Place.advanceBy, advance_eq_self hnil] at hq
    exact ih hq hnil

theorem Reaches.trans_passes (h : p.Reaches q) (h' : q.Passes r) : p.Passes r := by
  refine ⟨h.rest_ne_nil h'.1, ?_⟩
  obtain ⟨n, rfl⟩ := h
  cases n with
  | zero => exact h'.2
  | succ n => exact (Reaches.advanceBy p.advance n).trans h'.reaches

theorem Passes.advance (h : p.rest ≠ []) : p.Passes p.advance := ⟨h, Reaches.refl _⟩

/-! ### Characters that are looked at -/

theorem peek_eq_none_iff : p.peek = none ↔ p.rest = [] := List.head?_eq_none_iff

theorem rest_ne_nil_of_peek {c : Char} (h : p.peek = some c) : p.rest ≠ [] := by
  intro hnil
  rw [peek_eq_none_iff.mpr hnil] at h
  cases h

theorem rest_ne_nil_of_at? {c : Char} (h : p.at? c = true) : p.rest ≠ [] :=
  rest_ne_nil_of_peek (beq_iff_eq.mp h)

/-- A run that is not empty lies behind a character. -/
theorem span_passes {f : Char → Bool} {c : Char} (h : p.peek = some c) (hc : f c = true) :
    p.Passes (p.span f).2 := by
  have hne := rest_ne_nil_of_peek h
  obtain ⟨rest, hrest⟩ := List.head?_eq_some_iff.mp h
  refine ⟨hne, (rest.takeWhile f).length, ?_⟩
  rw [span, hrest, List.takeWhile_cons_of_pos hc]
  rfl

theorem span_eq_self {f : Char → Bool} {c : Char} (h : p.peek = some c) (hc : f c = false) :
    p.span f = ([], p) := by
  obtain ⟨rest, hrest⟩ := List.head?_eq_some_iff.mp h
  rw [span, hrest, List.takeWhile_cons_of_neg (by simp [hc])]
  rfl

theorem Reaches.skipComment (p : Place) : p.Reaches p.skipComment := by
  unfold Place.skipComment
  split
  · exact Reaches.skip p _
  · exact Reaches.refl p

theorem lineBreak?_passes {c : Char} (h : p.lineBreak? = some (c, q)) : p.Passes q := by
  unfold lineBreak? at h
  split at h
  · cases h
  · next d hd =>
    split at h
    · cases h
    · cases h
      exact Passes.advance (rest_ne_nil_of_peek hd)

theorem isBreak_of_lineBreak?_eq_none {c : Char} (h : p.peek = some c)
    (hnone : p.lineBreak? = none) : isBreak c = false := by
  rw [lineBreak?, h] at hnone
  dsimp only at hnone
  split at hnone
  · next hc => simpa using hc
  · cases hnone

/-- A line that is finished is passed over. -/
theorem finishLine_ends (p : Place) (fault : Fault) (h : fault ≠ .outOfDepth) :
    Ends p.Reaches (p.finishLine fault) := by
  unfold finishLine
  dsimp only
  split
  · exact ((Reaches.skip p _).trans (Reaches.skipComment _)).trans (Reaches.advance _)
  · exact h

end Place

end TextMask.Yaml
