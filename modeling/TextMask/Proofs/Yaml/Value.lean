import TextMask.Proofs.Policy.Integer
import TextMask.Yaml.Value

/-!
# Integers as plain scalars

A plain scalar that writes an integer in decimal digits is taken for one, and its value is that
integer.

* `Yaml.Tag.ofPlain_toString`: it is no word, no fraction and no number in base sixty;
* `Number.readInteger_toDigits`, `Yaml.Value.integerSize_toDigits`, `Yaml.Value.integer_toString`:
  its value;
* `Yaml.Value.ofText_toString`: what it stands for.
-/

namespace TextMask

/-! ### Signs and digits -/

/-- The text consists of minus signs and digits. -/
def SignsAndDigits (t : Text) : Prop := ∀ c ∈ t, c = '-' ∨ 48 ≤ c.toNat ∧ c.toNat ≤ 57

/-- A character that is neither a minus sign nor a digit. -/
abbrev IsOther (c : Char) : Prop := c ≠ '-' ∧ (c.toNat < 48 ∨ 57 < c.toNat)

theorem SignsAndDigits.notMem {t : Text} {c : Char} (h : SignsAndDigits t) (hc : IsOther c) :
    c ∉ t := by
  intro hmem
  rcases h c hmem with hminus | hdigit
  · exact hc.1 hminus
  · omega

theorem SignsAndDigits.notMem_words {t : Text} {words : List Text} (h : SignsAndDigits t)
    (hwords : words.all (fun w => w.any fun c => IsOther c) = true) : t ∉ words := by
  intro hmem
  obtain ⟨c, hc, hother⟩ := List.any_eq_true.mp (List.all_eq_true.mp hwords t hmem)
  exact h.notMem (of_decide_eq_true hother) hc

theorem signsAndDigits_toDigits (m : Nat) : SignsAndDigits (Nat.toDigits 10 m) :=
  fun _ hc => Or.inr (isDigit_of_mem_toDigits hc)

theorem signsAndDigits_toString (n : Int) : SignsAndDigits (toString n).toList := by
  rcases toList_toString n with ⟨m, -, htext⟩ | ⟨m, -, htext⟩
  · rw [htext]
    exact signsAndDigits_toDigits m
  · rw [htext]
    exact List.forall_mem_cons.mpr ⟨Or.inl rfl, signsAndDigits_toDigits m⟩

theorem dropSign_toDigits (m : Nat) : Number.dropSign (Nat.toDigits 10 m) = Nat.toDigits 10 m := by
  rw [Number.dropSign]
  · exact fun rest h => ne_of_mem_toDigits (h ▸ List.mem_cons_self) (by decide) rfl
  · exact fun rest h => ne_of_mem_toDigits (h ▸ List.mem_cons_self) (by decide) rfl

/-- Behind its sign an integer consists of the digits of its size. -/
theorem dropSign_toString (n : Int) :
    Number.dropSign (toString n).toList = Nat.toDigits 10 n.natAbs := by
  rcases toList_toString n with ⟨m, rfl, htext⟩ | ⟨m, rfl, htext⟩
  · rw [htext, dropSign_toDigits, Int.natAbs_natCast]
  · rw [htext, Int.natAbs_neg, Int.natAbs_natCast]
    rfl

/-! ### The kind of the scalar -/

namespace Yaml

theorem Plain.isInteger_toString (n : Int) : Plain.isInteger (toString n).toList = true := by
  rw [Plain.isInteger, dropSign_toString]
  by_cases hn : n.natAbs = 0
  · rw [hn]
    decide
  · obtain ⟨c, rest, hc, hzero⟩ := exists_toDigits_eq_cons hn
    have hdigits : Plain.isDigits (Nat.toDigits 10 n.natAbs) = true := by
      have hall : ∀ c ∈ Nat.toDigits 10 n.natAbs, c.isDigit = true := fun c h =>
        Nat.isDigit_of_mem_toDigits (by decide) (by decide) h
      rw [Plain.isDigits, Bool.and_eq_true, List.all_eq_true]
      refine ⟨?_, fun c h => ?_⟩
      · rw [hc]
        exact hall c (hc ▸ List.mem_cons_self)
      · rw [Plain.isDigitOrMark, hall c h]
        rfl
    rw [hc] at hdigits ⊢
    split
    · next h => exact absurd (List.cons.inj h).1 hzero
    · next h => exact absurd (List.cons.inj h).1 hzero
    · next h => exact absurd (List.cons.inj h).1 hzero
    · next h => exact absurd (List.cons.inj h).1 hzero
    · rw [hdigits]
      rfl

theorem Plain.isReal_toString (n : Int) : Plain.isReal (toString n).toList = false := by
  have ht := signsAndDigits_toString n
  have hsize := signsAndDigits_toDigits n.natAbs
  have hpoint : (Nat.toDigits 10 n.natAbs).contains '.' = false := by
    rw [Bool.eq_false_iff, Ne, List.contains_iff_mem]
    exact hsize.notMem (by decide)
  have hfraction : Plain.isFraction (Nat.toDigits 10 n.natAbs) = false := by
    rw [Plain.isFraction, hpoint]
    rfl
  have hbare : Plain.isBareFraction (toString n).toList = false := by
    unfold Plain.isBareFraction
    split
    · next h => exact absurd (h ▸ List.mem_cons_self) (ht.notMem (c := '.') (by decide))
    · rfl
  have hsexagesimal : Plain.isSexagesimalFraction (Nat.toDigits 10 n.natAbs) = false := by
    rw [Plain.isSexagesimalFraction, hpoint]
    rfl
  have hinfinities : Plain.infinities.contains (Nat.toDigits 10 n.natAbs) = false := by
    rw [Bool.eq_false_iff, Ne, List.contains_iff_mem]
    exact hsize.notMem_words (by decide)
  have hnans : Plain.nans.contains (toString n).toList = false := by
    rw [Bool.eq_false_iff, Ne, List.contains_iff_mem]
    exact ht.notMem_words (by decide)
  rw [Plain.isReal, dropSign_toString, hfraction, hbare, hsexagesimal, hinfinities, hnans]
  rfl

theorem Plain.isTruth_toString (n : Int) : Plain.isTruth (toString n).toList = false := by
  rw [Plain.isTruth, Bool.eq_false_iff, Ne, List.contains_iff_mem, String.ofList_toList]
  intro hmem
  refine (signsAndDigits_toString n).notMem_words ?_ (List.mem_map_of_mem (f := String.toList) hmem)
  decide

/-- An integer in decimal digits is taken for one. -/
theorem Tag.ofPlain_toString (n : Int) : Tag.ofPlain (toString n).toList = .int := by
  have ht := signsAndDigits_toString n
  have hbreak : '\n' ∉ (toString n).toList := ht.notMem (by decide)
  have hline : Plain.line (toString n).toList = (toString n).toList := by
    rw [Plain.line, if_neg]
    rw [beq_iff_eq]
    exact fun h => hbreak (List.mem_of_getLast? h)
  rw [Tag.ofPlain, if_neg, hline, Tag.ofLine, Plain.isTruth_toString, Plain.isReal_toString,
    Plain.isInteger_toString]
  · rfl
  · rw [beq_iff_eq]
    exact fun h => hbreak (h ▸ List.mem_singleton_self _)

end Yaml

/-! ### The value of the scalar -/

theorem Number.plainForm_of_mem {m : Nat} {c : Char} (h : c ∈ Nat.toDigits 10 m) :
    Number.plainForm c = c := by
  have := isDigit_of_mem_toDigits h
  rw [Number.plainForm, if_pos (by omega)]

theorem Number.isNegative_toDigits (m : Nat) : Number.isNegative (Nat.toDigits 10 m) = false := by
  rw [Number.isNegative, beq_eq_false_iff_ne]
  exact fun hhead => ne_of_mem_toDigits (List.mem_of_head? hhead) (by decide) rfl

theorem Number.dropBaseMark_ten (t : Text) : Number.dropBaseMark 10 t = t := by
  unfold Number.dropBaseMark
  split <;> rfl

theorem Number.readInteger_toDigits {m : Nat} (h : (Nat.toDigits 10 m).length ≤ Number.longest) :
    Number.readInteger 10 (Nat.toDigits 10 m) = .ok m := by
  have hmap : (Nat.toDigits 10 m).map Number.plainForm = Nat.toDigits 10 m := by
    rw [List.map_congr_left fun c hc => Number.plainForm_of_mem hc, List.map_id']
  have hspacing : (Nat.toDigits 10 m).dropWhile Number.isSpacing = Nat.toDigits 10 m := by
    cases hdigits : Nat.toDigits 10 m with
    | nil => rfl
    | cons c rest =>
      have hc := isDigit_of_mem_toDigits (hdigits ▸ List.mem_cons_self : c ∈ Nat.toDigits 10 m)
      refine List.dropWhile_cons_of_neg ?_
      rw [Number.isSpacing, Bool.or_eq_true, beq_iff_eq]
      rintro (rfl | hrange)
      · exact absurd hc (by decide)
      · simp only [Bool.and_eq_true, decide_eq_true_eq] at hrange
        omega
  have htake : (Nat.toDigits 10 m).takeWhile (Number.isDigitIn 10) = Nat.toDigits 10 m := by
    have hall : ∀ c ∈ Nat.toDigits 10 m, Number.isDigitIn 10 c = true := fun c hc => by
      rw [Number.isDigitIn,
        Number.digitIn?_of_isDigit (Nat.isDigit_of_mem_toDigits (by decide) (by decide) hc)]
      rfl
    have := @List.takeWhile_append_of_pos _ (Number.isDigitIn 10) (Nat.toDigits 10 m) [] hall
    rwa [List.append_nil, List.takeWhile_nil, List.append_nil] at this
  rw [Number.readInteger, hmap, hspacing, dropSign_toDigits, Number.dropBaseMark_ten, htake,
    List.drop_length, Number.ofDigits_toDigits,
    Number.isNegative_toDigits]
  have hne : (Nat.toDigits 10 m).isEmpty = false :=
    List.isEmpty_eq_false_iff.mpr Nat.toDigits_ne_nil
  rw [hne, if_neg (by simpa using h)]
  rfl

namespace Yaml

theorem Value.integerSize_toDigits {m : Nat} (h : (Nat.toDigits 10 m).length ≤ Number.longest) :
    Value.integerSize (Nat.toDigits 10 m) = .ok m := by
  by_cases hm : m = 0
  · subst hm
    rfl
  · have hpieces : Plain.colonPieces (Nat.toDigits 10 m) = [Nat.toDigits 10 m] :=
      List.splitOn_eq_singleton ((signsAndDigits_toDigits m).notMem (by decide))
    have hread := Number.readInteger_toDigits h
    obtain ⟨c, rest, hc, hzero⟩ := exists_toDigits_eq_cons hm
    rw [hc] at hpieces hread ⊢
    rw [Value.integerSize]
    · rw [hpieces, List.foldlM_cons, hread]
      show Except.ok (0 * 60 + (m : Int)) = _
      rw [Int.zero_mul, Int.zero_add]
    · exact List.cons_ne_nil _ _
    · exact fun h => hzero (List.cons.inj h).1
    · exact fun _ h => hzero (List.cons.inj h).1
    · exact fun _ h => hzero (List.cons.inj h).1
    · exact fun _ h => hzero (List.cons.inj h).1

theorem Value.integer_toString {n : Int} (h : (toString n).length ≤ Number.longest) :
    Value.integer (toString n).toList = .ok n := by
  have hmarks : Value.withoutMarks (toString n).toList = (toString n).toList := by
    refine List.filter_eq_self.mpr fun c hc => ?_
    rw [bne_iff_ne]
    rintro rfl
    exact (signsAndDigits_toString n).notMem (by decide) hc
  rw [← String.length_toList] at h
  rw [Value.integer, hmarks, dropSign_toString]
  rcases toList_toString n with ⟨m, rfl, htext⟩ | ⟨m, rfl, htext⟩
  · rw [htext] at h ⊢
    rw [Int.natAbs_natCast, Value.integerSize_toDigits h]
    show Except.ok (if Number.isNegative (Nat.toDigits 10 m) then -(m : Int) else m) = _
    rw [Number.isNegative_toDigits]
    rfl
  · rw [htext, List.length_cons] at h
    rw [htext, Int.natAbs_neg, Int.natAbs_natCast, Value.integerSize_toDigits (by omega)]
    rfl

/-- A plain scalar that writes an integer stands for it. -/
theorem Value.ofText_toString {n : Int} (h : (toString n).length ≤ Number.longest) :
    Value.ofText (toString n).toList (Tag.ofPlain (toString n).toList) = .ok (.integer n) := by
  rw [Tag.ofPlain_toString, Value.ofText, Value.integer_toString h]
  rfl

end Yaml

end TextMask
