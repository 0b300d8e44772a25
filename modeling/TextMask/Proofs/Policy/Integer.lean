import TextMask.Policy.Schema

/-!
# Integers in decimal digits

An integer that is written in decimal digits, with a minus sign if it is negative, is read as itself,
as long as it is not too long to be read at all.

* `Number.ofDigits_toDigits`: the number that the digits of a number write;
* `IntegerText.natural?_toDigits`, `IntegerText.bare?_toDigits`: digits are a bare form already;
* `IntegerText.read?_toString`, `Datum.toInteger?_toString`: integers are read back.
-/

namespace TextMask

/-! ### Digits -/

theorem exists_toDigits_eq_cons {n : Nat} (h : n ≠ 0) :
    ∃ c rest, Nat.toDigits 10 n = c :: rest ∧ c ≠ '0' := by
  induction n using Nat.strongRecOn with
  | ind n ih =>
    rw [Nat.toDigits_eq_if (by decide)]
    by_cases hn : n < 10
    · rw [if_pos hn]
      exact ⟨_, _, rfl, fun h0 => h (Nat.digitChar_eq_zero.mp h0)⟩
    · rw [if_neg hn]
      obtain ⟨c, rest, hc, hne⟩ := ih (n / 10) (by omega) (by omega)
      exact ⟨c, _, by rw [hc, List.cons_append], hne⟩

theorem isDigit_of_mem_toDigits {n : Nat} {c : Char} (h : c ∈ Nat.toDigits 10 n) :
    48 ≤ c.toNat ∧ c.toNat ≤ 57 :=
  Char.isDigit_iff_toNat.mp (Nat.isDigit_of_mem_toDigits (by decide) (by decide) h)

theorem ne_of_mem_toDigits {n : Nat} {c d : Char} (h : c ∈ Nat.toDigits 10 n)
    (hd : d.toNat < 48 ∨ 57 < d.toNat) : c ≠ d := by
  rintro rfl
  have := isDigit_of_mem_toDigits h
  omega

theorem Number.digitIn?_of_isDigit {c : Char} (h : c.isDigit) :
    Number.digitIn? 10 c = some (c.toNat - '0'.toNat) := by
  have hc : 48 ≤ c.toNat ∧ c.toNat ≤ 57 := Char.isDigit_iff_toNat.mp h
  have hlt : c.toNat - '0'.toNat < 10 := by
    show c.toNat - 48 < 10
    omega
  rw [Number.digitIn?, if_pos h]
  exact Option.filter_some_pos (by simpa using hlt)

theorem Number.ofDigits_toDigits (n : Nat) : Number.ofDigits 10 (Nat.toDigits 10 n) = n := by
  have hfold : ∀ (t : Text) (m : Nat), (∀ c ∈ t, c.isDigit) →
      t.foldl (fun n c => n * 10 + (Number.digitIn? 10 c).getD 0) m = Nat.ofDigitChars 10 t m := by
    intro t
    induction t with
    | nil => exact fun _ _ => rfl
    | cons c t ih =>
      intro m h
      rw [List.forall_mem_cons] at h
      rw [List.foldl_cons, Number.digitIn?_of_isDigit h.1, Option.getD_some, ih _ h.2,
        Nat.mul_comm]
      rfl
  rw [Number.ofDigits, hfold _ _ fun c hc => Nat.isDigit_of_mem_toDigits (by decide) (by decide) hc,
    Nat.ofDigitChars_toDigits (by decide) (by decide)]

theorem isWhiteSpace_eq_false {c : Char} (h : 0x21 ≤ c.toNat ∧ c.toNat ≤ 0x84) :
    isWhiteSpace c = false := by
  rw [Bool.eq_false_iff, Ne, isWhiteSpace, CodeRanges.has_iff]
  rintro ⟨range, hrange, hlow, hhigh⟩
  have hout : ∀ range ∈ whiteSpaces, range.2 < 0x21 ∨ 0x84 < range.1 := by decide
  have := hout range hrange
  omega

theorem Text.trim_eq_self {blank : Char → Bool} {t : Text} (h : ∀ c ∈ t, blank c = false) :
    t.trim blank = t := by
  have hdrop : ∀ t : Text, (∀ c ∈ t, blank c = false) → t.dropWhile blank = t := by
    intro t h
    cases t with
    | nil => rfl
    | cons c t => exact List.dropWhile_cons_of_neg (by simp [h c List.mem_cons_self])
  rw [Text.trim, hdrop t h, hdrop t.reverse fun c hc => h c (List.mem_reverse.mp hc),
    List.reverse_reverse]

/-- An integer in decimal digits: a minus sign is in front of a negative one. -/
theorem toList_toString (n : Int) :
    (∃ m : Nat, n = m ∧ (toString n).toList = Nat.toDigits 10 m) ∨
      ∃ m : Nat, n = -m ∧ (toString n).toList = '-' :: Nat.toDigits 10 m := by
  rw [Int.toString_eq_repr]
  cases n with
  | ofNat m => exact Or.inl ⟨m, rfl, Nat.toList_repr⟩
  | negSucc m =>
    refine Or.inr ⟨m + 1, rfl, ?_⟩
    rw [Int.repr, String.toList_append, Nat.toList_repr]
    rfl

/-! ### Integers in texts -/

namespace IntegerText

variable {n : Nat}

theorem dropZeros_toDigits (n : Nat) : dropZeros (Nat.toDigits 10 n) = some (Nat.toDigits 10 n) := by
  by_cases hn : n = 0
  · rw [hn]
    rfl
  · obtain ⟨c, rest, hc, hne⟩ := exists_toDigits_eq_cons hn
    have hdigit : c.isDigit := Nat.isDigit_of_mem_toDigits (by decide) (by decide)
      (hc ▸ List.mem_cons_self)
    rw [hc, dropZeros]
    · rw [hdigit]
      rfl
    · exact hne

theorem dropFraction_toDigits (n : Nat) :
    dropFraction (Nat.toDigits 10 n) = Nat.toDigits 10 n := by
  have hdrop : (Nat.toDigits 10 n).dropWhile (· != '.') = [] := by
    have := @List.dropWhile_append_of_pos _ (· != '.') (Nat.toDigits 10 n) []
      fun c hc => bne_iff_ne.mpr (ne_of_mem_toDigits hc (by decide))
    rwa [List.append_nil] at this
  rw [dropFraction, hdrop]
  rfl

theorem dropMarks_toDigits (n : Nat) : dropMarks (Nat.toDigits 10 n) = Nat.toDigits 10 n := by
  rw [dropMarks]
  split
  · rfl
  · refine List.filter_eq_self.mpr fun c hc => ?_
    simpa using ne_of_mem_toDigits hc (by decide)

theorem bare?_toDigits (n : Nat) : bare? (Nat.toDigits 10 n) = some (Nat.toDigits 10 n) := by
  rw [bare?, dropZeros_toDigits, Option.map_some, dropFraction_toDigits, dropMarks_toDigits]

theorem natural?_toDigits (n : Nat) : natural? (Nat.toDigits 10 n) = some n := by
  have hne : Nat.toDigits 10 n ≠ [] := Nat.toDigits_ne_nil
  have hall : (Nat.toDigits 10 n).all Char.isDigit = true :=
    List.all_eq_true.mpr fun c hc => Nat.isDigit_of_mem_toDigits (by decide) (by decide) hc
  have hhead : (Nat.toDigits 10 n == ['0'] || (Nat.toDigits 10 n).head? != some '0') = true := by
    by_cases hn : n = 0
    · rw [hn]
      rfl
    · obtain ⟨c, rest, hc, hzero⟩ := exists_toDigits_eq_cons hn
      rw [hc]
      simp [hzero]
  rw [natural?, hall, hhead, if_pos (by simp [hne]), Number.ofDigits_toDigits]

/-- An integer that is not too long is read back. -/
theorem read?_toString {n : Int} (h : (toString n).length ≤ Number.longest) :
    read? (toString n).toList = some n := by
  rw [← String.length_toList] at h
  rcases toList_toString n with ⟨m, rfl, htext⟩ | ⟨m, rfl, htext⟩
  · have hspace : ∀ c ∈ Nat.toDigits 10 m, isWhiteSpace c = false := fun c hc =>
      isWhiteSpace_eq_false (by have := isDigit_of_mem_toDigits hc; omega)
    have hminus : ∀ rest, Nat.toDigits 10 m ≠ '-' :: rest := fun rest hc =>
      ne_of_mem_toDigits (hc ▸ List.mem_cons_self) (by decide) rfl
    have hplus : ∀ rest, Nat.toDigits 10 m ≠ '+' :: rest := fun rest hc =>
      ne_of_mem_toDigits (hc ▸ List.mem_cons_self) (by decide) rfl
    rw [htext] at h ⊢
    rw [read?, Text.trim_eq_self hspace]
    split
    · next hc => exact absurd hc (hminus _)
    · next hc => exact absurd hc (hplus _)
    · rw [bare?_toDigits, Option.bind_some, integer?, if_neg (Nat.not_lt.mpr h)]
      · rw [natural?_toDigits]
        rfl
      · exact hminus
  · have hspace : ∀ c ∈ '-' :: Nat.toDigits 10 m, isWhiteSpace c = false := by
      rw [List.forall_mem_cons]
      exact ⟨by decide, fun c hc =>
        isWhiteSpace_eq_false (by have := isDigit_of_mem_toDigits hc; omega)⟩
    rw [htext] at h ⊢
    rw [read?, Text.trim_eq_self hspace]
    show (bare? (Nat.toDigits 10 m)).bind _ = _
    rw [bare?_toDigits, Option.bind_some, integer?, if_neg (Nat.not_lt.mpr h)]
    rw [natural?_toDigits]
    rfl

end IntegerText

theorem Datum.toInteger?_toString {n : Int} (h : (toString n).length ≤ Number.longest) :
    Datum.toInteger? (.text (toString n).toList) = some n :=
  IntegerText.read?_toString h

end TextMask
