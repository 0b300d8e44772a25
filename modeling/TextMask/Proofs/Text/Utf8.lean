import TextMask.Proofs.Failure
import TextMask.Text.Utf8

/-!
# What UTF-8 encodes

`Utf8.decode` accepts the encodings of texts and nothing else. So every text is read back, and no
other sequence of bytes, however close to one, is taken for it.

* `Utf8.tails_succ_eq_ok_iff`: one continuation byte;
* `Utf8.tails_utf8EncodeChar`, `Utf8.utf8EncodeChar_of_tails`: one character;
* `Utf8.decode_eq_ok_iff`: a whole text.
-/

namespace TextMask.Utf8

/-- The bytes that encode a text. -/
def encode (t : Text) : List UInt8 := t.flatMap String.utf8EncodeChar

/-! ### One character -/

theorem tails_succ_eq_ok_iff {low high owed good payload code : Nat} {bytes : List UInt8} :
    tails low high (owed + 1) good payload bytes = .ok code ↔
      ∃ b rest, bytes = b :: rest ∧ low ≤ b.toNat ∧ b.toNat ≤ high ∧
        tails 0x80 0xBF owed (good + 1) (payload * 64 + (b.toNat - 0x80)) rest = .ok code := by
  cases bytes with
  | nil => simp [tails]
  | cons b rest =>
    rw [tails]
    split
    · next h =>
      simp only [Bool.and_eq_true, decide_eq_true_eq] at h
      constructor
      · exact fun hrest => ⟨b, rest, rfl, h.1, h.2, hrest⟩
      · rintro ⟨b', rest', ⟨rfl, rfl⟩, -, -, hrest⟩
        exact hrest
    · next h =>
      simp only [Bool.and_eq_true, decide_eq_true_eq] at h
      constructor
      · exact (nomatch ·)
      · rintro ⟨b', rest', ⟨rfl, rfl⟩, hlow, hhigh, -⟩
        exact absurd ⟨hlow, hhigh⟩ h

/-- What lead bytes announce, by the number of continuation bytes. -/
theorem lead?_eq_some_iff {b : UInt8} {lead : Lead} :
    lead? b = some lead ↔
      (b.toNat < 0x80 ∧ lead = ⟨b.toNat, 0, 0x80, 0xBF⟩) ∨
      (0xC2 ≤ b.toNat ∧ b.toNat < 0xE0 ∧ lead = ⟨b.toNat - 0xC0, 1, 0x80, 0xBF⟩) ∨
      (0xE0 ≤ b.toNat ∧ b.toNat < 0xF0 ∧
        lead = ⟨b.toNat - 0xE0, 2, if b.toNat = 0xE0 then 0xA0 else 0x80,
          if b.toNat = 0xED then 0x9F else 0xBF⟩) ∨
      (0xF0 ≤ b.toNat ∧ b.toNat ≤ 0xF4 ∧
        lead = ⟨b.toNat - 0xF0, 3, if b.toNat = 0xF0 then 0x90 else 0x80,
          if b.toNat = 0xF4 then 0x8F else 0xBF⟩) := by
  unfold lead?
  grind

theorem tails_continuation {low high owed good payload n : Nat} {rest : List UInt8}
    (hlow : low ≤ n % 64 + 128) (hhigh : n % 64 + 128 ≤ high) :
    tails low high (owed + 1) good payload (UInt8.ofNat (n % 64 + 128) :: rest) =
      tails 0x80 0xBF owed (good + 1) (payload * 64 + n % 64) rest := by
  have hb : (UInt8.ofNat (n % 64 + 128)).toNat = n % 64 + 128 := by
    rw [UInt8.toNat_ofNat']
    omega
  rw [tails, hb, if_pos (by simp [hlow, hhigh]), Nat.add_sub_cancel]

/-- An encoded character begins with a lead byte that announces what follows. -/
theorem lead_utf8EncodeChar (c : Char) :
    ∃ b tail lead, String.utf8EncodeChar c = b :: tail ∧ lead? b = some lead ∧
      lead.tails = tail.length ∧
      ∀ rest, tails lead.low lead.high lead.tails 0 lead.payload (tail ++ rest) = .ok c.toNat := by
  have hvalid : c.val.toNat < 0xD800 ∨ 0xDFFF < c.val.toNat ∧ c.val.toNat < 0x110000 := c.valid
  have hc : c.toNat = c.val.toNat := rfl
  unfold String.utf8EncodeChar
  generalize c.val.toNat = v at *
  simp only [hc]
  by_cases h1 : v ≤ 127
  · have hb : (UInt8.ofNat v).toNat = v := by
      rw [UInt8.toNat_ofNat']
      omega
    rw [if_pos h1]
    refine ⟨_, _, _, rfl, lead?_eq_some_iff.mpr (Or.inl ⟨by omega, rfl⟩), rfl, fun rest => ?_⟩
    exact congrArg Except.ok hb
  by_cases h2 : v ≤ 2047
  · have hb : (UInt8.ofNat (v / 64 % 32 + 192)).toNat = v / 64 + 192 := by
      rw [UInt8.toNat_ofNat']
      omega
    rw [if_neg h1, if_pos h2]
    refine ⟨_, _, _, rfl, lead?_eq_some_iff.mpr (Or.inr (Or.inl ⟨by omega, by omega, rfl⟩)), rfl,
      fun rest => ?_⟩
    rw [hb]
    dsimp only [List.cons_append]
    rw [tails_continuation (by omega) (by omega)]
    exact congrArg Except.ok (by omega)
  by_cases h3 : v ≤ 65535
  · have hb : (UInt8.ofNat (v / 4096 % 16 + 224)).toNat = v / 4096 + 224 := by
      rw [UInt8.toNat_ofNat']
      omega
    rw [if_neg h1, if_neg h2, if_pos h3]
    refine ⟨_, _, _, rfl,
      lead?_eq_some_iff.mpr (Or.inr (Or.inr (Or.inl ⟨by omega, by omega, rfl⟩))), rfl,
      fun rest => ?_⟩
    rw [hb]
    dsimp only [List.cons_append]
    rw [tails_continuation (by split <;> omega) (by split <;> omega),
      tails_continuation (by omega) (by omega)]
    exact congrArg Except.ok (by omega)
  · have hb : (UInt8.ofNat (v / 262144 % 8 + 240)).toNat = v / 262144 + 240 := by
      rw [UInt8.toNat_ofNat']
      omega
    rw [if_neg h1, if_neg h2, if_neg h3]
    refine ⟨_, _, _, rfl,
      lead?_eq_some_iff.mpr (Or.inr (Or.inr (Or.inr ⟨by omega, by omega, rfl⟩))), rfl,
      fun rest => ?_⟩
    rw [hb]
    dsimp only [List.cons_append]
    rw [tails_continuation (by split <;> omega) (by split <;> omega),
      tails_continuation (by omega) (by omega), tails_continuation (by omega) (by omega)]
    exact congrArg Except.ok (by omega)

theorem toNat_ofNat {n : Nat} (h : n.isValidChar) : (Char.ofNat n).val.toNat = n := by
  rw [Char.ofNat, dif_pos h]
  rfl

theorem eq_ofNat {b : UInt8} {n : Nat} (h : n = b.toNat) : UInt8.ofNat n = b := by
  rw [h, UInt8.ofNat_toNat]

/-- What is read as a character is its encoding: no longer form, no surrogate and no number beyond
the last code point. -/
theorem utf8EncodeChar_of_tails {b : UInt8} {lead : Lead} {bytes : List UInt8} {code : Nat}
    (hlead : lead? b = some lead)
    (h : tails lead.low lead.high lead.tails 0 lead.payload bytes = .ok code) :
    ∃ tail rest, bytes = tail ++ rest ∧ lead.tails = tail.length ∧
      String.utf8EncodeChar (Char.ofNat code) = b :: tail := by
  unfold String.utf8EncodeChar
  rcases lead?_eq_some_iff.mp hlead with ⟨hb, rfl⟩ | ⟨hb, hb', rfl⟩ | ⟨hb, hb', rfl⟩ | ⟨hb, hb', rfl⟩
  · obtain rfl : b.toNat = code := Except.ok.inj h
    rw [toNat_ofNat (Or.inl (by omega))]
    refine ⟨[], bytes, rfl, rfl, ?_⟩
    rw [if_pos (by omega), eq_ofNat rfl]
  · obtain ⟨b1, rest, rfl, hlow, hhigh, h⟩ := tails_succ_eq_ok_iff.mp h
    obtain rfl := Except.ok.inj h
    dsimp only at hlow hhigh ⊢
    rw [toNat_ofNat (Or.inl (by omega))]
    refine ⟨[b1], rest, rfl, rfl, ?_⟩
    rw [if_neg (by omega), if_pos (by omega), eq_ofNat (b := b) (by omega),
      eq_ofNat (b := b1) (by omega)]
  · obtain ⟨b1, rest, rfl, hlow, hhigh, h⟩ := tails_succ_eq_ok_iff.mp h
    obtain ⟨b2, rest, rfl, hlow2, hhigh2, h⟩ := tails_succ_eq_ok_iff.mp h
    obtain rfl := Except.ok.inj h
    dsimp only at hlow hhigh ⊢
    have hlow' : 0x80 ≤ b1.toNat ∧ (b.toNat = 0xE0 → 0xA0 ≤ b1.toNat) := by
      split at hlow <;> omega
    have hhigh' : b1.toNat ≤ 0xBF ∧ (b.toNat = 0xED → b1.toNat ≤ 0x9F) := by
      split at hhigh <;> omega
    have hcode : Nat.isValidChar
        (((b.toNat - 0xE0) * 64 + (b1.toNat - 0x80)) * 64 + (b2.toNat - 0x80)) := by
      unfold Nat.isValidChar
      omega
    rw [toNat_ofNat hcode]
    refine ⟨[b1, b2], rest, rfl, rfl, ?_⟩
    rw [if_neg (by omega), if_neg (by omega), if_pos (by omega), eq_ofNat (b := b) (by omega),
      eq_ofNat (b := b1) (by omega), eq_ofNat (b := b2) (by omega)]
  · obtain ⟨b1, rest, rfl, hlow, hhigh, h⟩ := tails_succ_eq_ok_iff.mp h
    obtain ⟨b2, rest, rfl, hlow2, hhigh2, h⟩ := tails_succ_eq_ok_iff.mp h
    obtain ⟨b3, rest, rfl, hlow3, hhigh3, h⟩ := tails_succ_eq_ok_iff.mp h
    obtain rfl := Except.ok.inj h
    dsimp only at hlow hhigh ⊢
    have hlow' : 0x80 ≤ b1.toNat ∧ (b.toNat = 0xF0 → 0x90 ≤ b1.toNat) := by
      split at hlow <;> omega
    have hhigh' : b1.toNat ≤ 0xBF ∧ (b.toNat = 0xF4 → b1.toNat ≤ 0x8F) := by
      split at hhigh <;> omega
    have hcode : Nat.isValidChar
        ((((b.toNat - 0xF0) * 64 + (b1.toNat - 0x80)) * 64 + (b2.toNat - 0x80)) * 64 +
          (b3.toNat - 0x80)) := by
      unfold Nat.isValidChar
      omega
    rw [toNat_ofNat hcode]
    refine ⟨[b1, b2, b3], rest, rfl, rfl, ?_⟩
    rw [if_neg (by omega), if_neg (by omega), if_neg (by omega), eq_ofNat (b := b) (by omega),
      eq_ofNat (b := b1) (by omega), eq_ofNat (b := b2) (by omega), eq_ofNat (b := b3) (by omega)]

/-! ### Whole texts -/

/-- What is read behind the continuation bytes that are still to be passed over. -/
theorem decodeFrom_eq_ok_iff {skip position : Nat} {bytes : List UInt8} {t : Text} :
    decodeFrom skip position bytes = .ok t ↔ bytes.drop skip = encode t := by
  induction bytes generalizing skip position t with
  | nil =>
    rw [decodeFrom, List.drop_nil, Except.ok.injEq]
    cases t with
    | nil => exact iff_of_true rfl rfl
    | cons c t =>
      obtain ⟨b, tail, -, hc, -⟩ := lead_utf8EncodeChar c
      rw [encode, List.flatMap_cons, hc]
      exact iff_of_false (nomatch ·) (nomatch ·)
  | cons b rest ih =>
    cases skip with
    | succ skip => exact ih
    | zero =>
      rw [List.drop_zero]
      constructor
      · intro h
        rw [decodeFrom] at h
        split at h
        · cases h
        next lead hlead =>
          split at h
          · cases h
          next code htails =>
            obtain ⟨t', ht', rfl⟩ := Except.map_eq_ok_iff.mp h
            obtain ⟨tail, rest, rfl, htail, hc⟩ := utf8EncodeChar_of_tails hlead htails
            rw [ih, htail, List.drop_left] at ht'
            rw [encode, List.flatMap_cons, hc, ← encode, ht', List.cons_append]
      · intro h
        cases t with
        | nil => cases h
        | cons c t =>
          obtain ⟨b', tail, lead, hc, hlead, htail, htails⟩ := lead_utf8EncodeChar c
          rw [encode, List.flatMap_cons, hc, List.cons_append, ← encode] at h
          obtain ⟨rfl, rfl⟩ := List.cons.inj h
          have ht : decodeFrom lead.tails (position + 1) (tail ++ encode t) = .ok t := by
            rw [ih, htail, List.drop_left]
          rw [decodeFrom]
          simp only [hlead, htails, ht, Char.ofNat_toNat]
          rfl

/-- The bytes that are read as a text are those that encode it. -/
theorem decode_eq_ok_iff {bytes : List UInt8} {t : Text} :
    decode bytes = .ok t ↔ bytes = encode t :=
  decodeFrom_eq_ok_iff

theorem decode_encode (t : Text) : decode (encode t) = .ok t := decode_eq_ok_iff.mpr rfl

end TextMask.Utf8
