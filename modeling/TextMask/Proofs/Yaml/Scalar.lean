import TextMask.Proofs.Yaml.Place
import TextMask.Yaml.Scalar

/-!
# Reading scalars goes on

Each way to write a scalar has a reader that ends further on than it began, and none of them runs
out of the steps it is given.

* `PlainScalar.read_passes`: a plain scalar has characters;
* `QuotedScalar.read_passes`: so has a quoted one, its quote at least;
* `BlockScalar.read_passes`: and a block, its mark.
-/

namespace TextMask.Yaml

variable {p q : Place}

/-! ### Plain scalars -/

namespace PlainScalar

theorem blankLines_reaches (first : Char) (fuel : Nat) (breaks : Text) (p : Place) :
    p.Reaches (blankLines first fuel breaks p).place := by
  induction fuel generalizing breaks p with
  | zero => exact .refl p
  | succ fuel ih =>
    unfold blankLines
    split
    · exact (Place.Reaches.advance p).trans (ih breaks p.advance)
    · split
      · exact .refl p
      · next c q hbreak =>
        have hq := (Place.lineBreak?_passes hbreak).reaches
        split
        · exact hq
        · exact hq.trans (ih (c :: breaks) q)

theorem gap_reaches (p : Place) : p.Reaches (gap p).place := by
  have hspan := Place.Reaches.span p (· == ' ')
  unfold gap
  dsimp only
  split
  · exact hspan
  · next c q hbreak =>
    have hq := hspan.trans (Place.lineBreak?_passes hbreak).reaches
    split
    · exact hq
    · exact hq.trans (blankLines_reaches c q.left [] q)

theorem words_reaches (inFlow : Bool) (indent : Int) (fuel : Nat) (found : List Text) (g : Gap) :
    g.place.Reaches (words inFlow indent fuel found g).place := by
  induction fuel generalizing found g with
  | zero => exact .refl g.place
  | succ fuel ih =>
    unfold words
    dsimp only
    split
    · exact .refl g.place
    · have hnext := (Place.Reaches.advanceBy g.place (word inFlow g.place.rest).length).trans
        (gap_reaches _)
      split
      · exact hnext
      · exact hnext.trans (ih _ _)

/-- A plain scalar that begins with a word lies behind it. -/
theorem read_passes {inFlow : Bool} (indent : Int) (hcomment : p.at? '#' = false)
    (hword : word inFlow p.rest ≠ []) : p.Passes (read inFlow indent p).place := by
  have hne : p.rest ≠ [] := fun hnil => hword (by rw [hnil, word])
  have hpasses : p.Passes (p.advanceBy (word inFlow p.rest).length) := by
    cases hrun : word inFlow p.rest with
    | nil => exact absurd hrun hword
    | cons c run => exact ⟨hne, .advanceBy p.advance run.length⟩
  have hnext := hpasses.trans_reaches (gap_reaches _)
  have hempty : (word inFlow p.rest).isEmpty = false := List.isEmpty_eq_false_iff.mpr hword
  unfold read words
  dsimp only
  rw [hcomment, hempty]
  rw [if_neg (by decide)]
  split
  · exact hnext
  · exact hnext.trans_reaches (words_reaches _ _ _ _ _)

end PlainScalar

/-! ### Quoted scalars -/

namespace QuotedScalar

theorem breaks_ends {fuel : Nat} {found : Text} (hp : p.Sound) (hfuel : p.left < fuel) :
    Ends (fun r => p.Reaches r.2) (breaks fuel found p) := by
  induction fuel generalizing found p with
  | zero => omega
  | succ fuel ih =>
    have hskip := Place.Reaches.skip p fun c => c == ' ' || c == '\t'
    unfold breaks
    split
    · exact (nomatch ·)
    · dsimp only
      split
      · exact hskip
      · next c q hbreak =>
        have hpasses := hskip.trans_passes (Place.lineBreak?_passes hbreak)
        have hlt := hpasses.left_lt hp
        exact (ih (hpasses.reaches.sound hp) (by omega)).mono fun r hr => hpasses.reaches.trans hr

theorem charOfCode_ends (n : Nat) : Ends (fun _ => True) (charOfCode n) := by
  unfold charOfCode
  split
  · exact (nomatch ·)
  · split
    · exact (nomatch ·)
    · split <;> trivial

theorem escape_ends (hp : p.Sound) : Ends (fun r => p.Reaches r.2) (escape p) := by
  unfold escape
  split
  · exact (nomatch ·)
  · split
    · exact Place.Reaches.advance p
    · dsimp only
      split
      · exact (charOfCode_ends _).bind fun d _ => Place.Reaches.advanceBy p _
      · exact (nomatch ·)
    · next c q _ _ hbreak =>
      have hq := (Place.lineBreak?_passes hbreak).reaches
      exact (breaks_ends (hq.sound hp) (Nat.lt_succ_self _)).mono fun r hr => hq.trans hr
    · exact (nomatch ·)

theorem word_ends {double : Bool} {fuel : Nat} {found : Text} (hp : p.Sound)
    (hfuel : p.left < fuel) : Ends (fun r => p.Reaches r.2) (word double fuel found p) := by
  induction fuel generalizing found p with
  | zero => omega
  | succ fuel ih =>
    unfold word
    split
    · exact .refl p
    · next c hc =>
      have hne := Place.rest_ne_nil_of_peek hc
      have hon : ∀ {q : Place} (found : Text), p.Passes q →
          Ends (fun r => p.Reaches r.2) (word double fuel found q) := fun found hpasses =>
        (ih (hpasses.reaches.sound hp) (by have := hpasses.left_lt hp; omega)).mono
          fun r hr => hpasses.reaches.trans hr
      split
      · exact .refl p
      · split
        · split
          · exact hon _ ⟨hne, .advanceBy p.advance 1⟩
          · exact .refl p
        · split
          · exact .refl p
          · split
            · exact (escape_ends hp.advance).bind fun r hr =>
                hon _ ((Place.Passes.advance hne).trans_reaches hr)
            · exact hon _ (.advance hne)

/-- A word that begins with a character other than a gap or a quote lies behind that. -/
theorem word_passes {double : Bool} {found : Text} {c : Char} (hp : p.Sound)
    (hc : p.peek = some c) (hgap : isGap c = false)
    (hquote : c ≠ if double then '"' else '\'') :
    Ends (fun r => p.Passes r.2) (word double (p.left + 1) found p) := by
  have hne := Place.rest_ne_nil_of_peek hc
  have hadvance := Place.Passes.advance hne
  have hlt := hadvance.left_lt hp
  unfold word
  simp only [hc, hgap]
  cases double with
  | false =>
    rw [if_neg (by decide), if_neg (by simpa using hquote), Bool.false_and, Bool.false_and,
      if_neg (by decide), if_neg (by decide)]
    exact (word_ends hp.advance hlt).mono fun r hr => hadvance.trans_reaches hr
  | true =>
    rw [if_neg (by decide), if_neg (by simp), if_neg (by simpa using hquote)]
    split
    · refine (escape_ends hp.advance).bind fun r hr => ?_
      have hr' := hadvance.trans_reaches hr
      exact (word_ends (hr.sound hp.advance) (hr'.left_lt hp)).mono fun r' h =>
        hr'.trans_reaches h
    · exact (word_ends hp.advance hlt).mono fun r hr => hadvance.trans_reaches hr

/-- A gap has characters, unless a word begins here. -/
theorem gap_ends (hp : p.Sound) :
    Ends (fun r => p.Passes r.2 ∨ r.2 = p ∧ ∃ c, p.peek = some c ∧ isGap c = false) (gap p) := by
  have hunclosed : Fault.unclosedQuote ≠ .outOfDepth := by decide
  unfold gap
  cases hc : p.peek with
  | none =>
    have hspan : p.span (fun c => c == ' ' || c == '\t') = ([], p) := by
      rw [Place.span, Place.peek_eq_none_iff.mp hc]
      rfl
    rw [hspan]
    dsimp only
    rw [hc]
    exact hunclosed
  | some c =>
    by_cases hblank : (c == ' ' || c == '\t') = true
    · have hspan := Place.span_passes (f := fun c => c == ' ' || c == '\t') hc hblank
      dsimp only
      split
      · exact hunclosed
      · exact Or.inl hspan
      · next c q _ hbreak =>
        have hq := hspan.trans_reaches (Place.lineBreak?_passes hbreak).reaches
        exact (breaks_ends (hq.reaches.sound hp) (Nat.lt_succ_self _)).bind fun r hr =>
          Or.inl (hq.trans_reaches hr)
    · have hblank' := Bool.eq_false_iff.mpr hblank
      rw [Place.span_eq_self hc hblank']
      dsimp only
      rw [hc]
      cases hbreak : p.lineBreak? with
      | none =>
        refine Or.inr ⟨rfl, c, rfl, ?_⟩
        rw [isGap, hblank', Place.isBreak_of_lineBreak?_eq_none hc hbreak]
        rfl
      | some r =>
        have hq := Place.lineBreak?_passes hbreak
        exact (breaks_ends (hq.reaches.sound hp) (Nat.lt_succ_self _)).bind fun r hr =>
          Or.inl (hq.trans_reaches hr)

theorem words_ends {double : Bool} {fuel : Nat} {found : List Text} (hp : p.Sound)
    (hfuel : p.left < fuel) : Ends (fun r => p.Reaches r.2) (words double fuel found p) := by
  induction fuel generalizing found p with
  | zero => omega
  | succ fuel ih =>
    have hon : ∀ {q : Place} (found : List Text), p.Passes q →
        Ends (fun r => p.Reaches r.2) (words double fuel found q) := fun found hpasses =>
      (ih (hpasses.reaches.sound hp) (by have := hpasses.left_lt hp; omega)).mono
        fun r hr => hpasses.reaches.trans hr
    rw [words]
    by_cases hquote : p.at? (if double then '"' else '\'') = true
    · rw [if_pos hquote]
      exact Place.Reaches.advance p
    · rw [if_neg hquote]
      refine (gap_ends hp).bind fun r hr => ?_
      rcases hr with hr | ⟨hr, c, hc, hgap⟩
      · exact (word_ends (hr.reaches.sound hp) (Nat.lt_succ_self _)).bind fun r' hr' =>
          hon _ (hr.trans_reaches hr')
      · obtain ⟨blanks, q⟩ := r
        cases hr
        refine (word_passes hp hc hgap ?_).bind fun r' hr' => hon _ hr'
        rintro rfl
        exact hquote (beq_iff_eq.mpr hc)

/-- A quoted scalar lies behind its opening quote. -/
theorem read_passes {double : Bool} (hp : p.Sound) (hne : p.rest ≠ []) :
    Ends (fun r => p.Passes r.2) (read double p) := by
  unfold read
  dsimp only
  refine (word_ends hp.advance (Nat.lt_succ_self _)).bind fun r hr => ?_
  refine (words_ends (hr.sound hp.advance) (Nat.lt_succ_self _)).mono fun r' hr' => ?_
  exact (Place.Passes.advance hne).trans_reaches (hr.trans hr')

end QuotedScalar

/-! ### Block scalars -/

namespace BlockScalar

theorem incrementOf_ends (c : Option Char) : Ends (fun _ => True) (incrementOf c) := by
  unfold incrementOf
  split
  · split
    · exact (nomatch ·)
    · split <;> trivial
  · trivial

/-- A header ends with its line. -/
theorem headerLine_ends {h : Header} (hq : p.Reaches q) :
    Ends (fun r => p.Reaches r.2)
      (if q.atSpace then (h, ·) <$> q.finishLine .badBlockHeader else .error .badBlockHeader) := by
  split
  · have hfinish := q.finishLine_ends .badBlockHeader (nomatch ·)
    exact hfinish.bind fun r hr => hq.trans hr
  · exact (nomatch ·)

theorem header_ends (p : Place) : Ends (fun r => p.Reaches r.2) (header p) := by
  unfold header
  dsimp only
  split
  · refine (incrementOf_ends _).bind fun increment _ => ?_
    refine headerLine_ends ?_
    split
    · exact .advanceBy p 2
    · exact .advance p
  · refine (incrementOf_ends _).bind fun increment _ => ?_
    cases increment with
    | none => exact headerLine_ends (.refl p)
    | some n =>
      dsimp only
      split
      · exact headerLine_ends (.advanceBy p 2)
      · exact headerLine_ends (.advance p)

theorem findIndent_reaches (fuel : Nat) (found : Text) (widest : Nat) (p : Place) :
    p.Reaches (findIndent fuel found widest p).2.2 := by
  induction fuel generalizing found widest p with
  | zero => exact .refl p
  | succ fuel ih =>
    unfold findIndent
    split
    · exact (Place.Reaches.advance p).trans (ih _ _ _)
    · split
      · next c q hbreak => exact (Place.lineBreak?_passes hbreak).reaches.trans (ih _ _ _)
      · exact .refl p

theorem indentTo_reaches (indent fuel : Nat) (p : Place) : p.Reaches (indentTo indent fuel p) := by
  induction fuel generalizing p with
  | zero => exact .refl p
  | succ fuel ih =>
    unfold indentTo
    split
    · exact (Place.Reaches.advance p).trans (ih _)
    · exact .refl p

theorem emptyLines_reaches (indent fuel : Nat) (found : Text) (p : Place) :
    p.Reaches (emptyLines indent fuel found p).2 := by
  induction fuel generalizing found p with
  | zero => exact .refl p
  | succ fuel ih =>
    have hindent := indentTo_reaches indent p.left p
    unfold emptyLines
    dsimp only
    split
    · exact hindent
    · next c q hbreak =>
      exact hindent.trans ((Place.lineBreak?_passes hbreak).reaches.trans (ih _ _))

theorem lines_reaches (folded : Bool) (indent fuel : Nat) (found : List Text) (empty : Text)
    (p : Place) : p.Reaches (lines folded indent fuel found empty p).2.2.2 := by
  induction fuel generalizing found empty p with
  | zero => exact .refl p
  | succ fuel ih =>
    have hspan := Place.Reaches.span p (!isBreak ·)
    have hon : ∀ (q : Place) (joint : Text) (found : List Text) (r : Text × Place),
        p.Reaches q → r = emptyLines indent (q.left + 1) [] q →
        p.Reaches (lines folded indent fuel (joint :: found) r.1 r.2).2.2.2 := by
      rintro q joint found r hq rfl
      exact (hq.trans (emptyLines_reaches _ _ _ _)).trans (ih _ _ _)
    unfold lines
    dsimp only
    split
    · next c q hbreak =>
      have hq := hspan.trans (Place.lineBreak?_passes hbreak).reaches
      dsimp only
      split
      · exact hon q _ _ _ hq rfl
      · exact hq.trans (emptyLines_reaches indent (q.left + 1) [] q)
    · dsimp only
      split
      · exact hon _ _ _ _ hspan rfl
      · exact hspan.trans (emptyLines_reaches indent (_ + 1) [] _)

/-- A block scalar lies behind its mark. -/
theorem read_passes {folded : Bool} {parent : Int} (hne : p.rest ≠ []) :
    Ends (fun r => p.Passes r.2) (read folded parent p) := by
  unfold read
  refine (header_ends _).bind fun ⟨⟨chomping, increment⟩, q⟩ hheader => ?_
  have hq : p.Passes q := (Place.Passes.advance hne).trans_reaches hheader
  have hbody : ∀ (indent : Nat) (empty : Text) (q : Place), p.Passes q →
      p.Passes (if atLine indent q then lines folded indent (q.left + 1) [] empty q
        else ([], [], empty, q)).2.2.2 := by
    intro indent empty q hq
    split
    · exact hq.trans_reaches (lines_reaches _ _ _ _ _ _)
    · exact hq
  cases increment with
  | none =>
    have hempty := hq.trans_reaches (findIndent_reaches (q.left + 1) [] 0 q)
    cases chomping <;> exact hbody _ _ _ hempty
  | some n =>
    have hempty := fun indent => hq.trans_reaches (emptyLines_reaches indent (q.left + 1) [] q)
    cases chomping <;> exact hbody _ _ _ (hempty _)

end BlockScalar

end TextMask.Yaml
