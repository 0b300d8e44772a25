import TextMask.Proofs.Chain.Keeping
import TextMask.Proofs.Mask.Extent

/-!
# Sparse and full texts

The shortest complete texts of a chain leave every optional slot empty, the longest ones fill it.
A full text can be typed as it is. A sparse text cannot, since an optional slot takes what it can
get; but every optional slot is passed at a character that no class holds. The same character, which
need not be told apart from the literals, brings a run to the next slot that asks for a character.

* `CharClass.exists_stray`: a character that no class holds;
* `Chain.Sparse`: the texts that fill the mandatory slots of a chain and no other;
* `Sparse.exists_typed`: some typed text is formatted to a given sparse text;
* `Regular.exists_full`: a text of the greatest length, which the chain keeps;
* `Regular.exists_long`: with an ellipsis at its end a chain keeps texts of any length.
-/

namespace TextMask

namespace CharClass

theorem exists_accepts (k : CharClass) : ∃ c, k.accepts c = true := by
  cases k with
  | numeric => exact ⟨'0', isDecimalDigit_of_isDigit rfl⟩
  | letter => exact ⟨'a', isLetter_of_isAlpha rfl⟩
  | alphanumeric => exact ⟨'0', accepts_alphanumeric numeric (isDecimalDigit_of_isDigit rfl)⟩

theorem exists_stray : ∃ c, ∀ k : CharClass, k.accepts c = false :=
  ⟨'!', fun k => by cases k <;> decide +kernel⟩

end CharClass

namespace Chain

/-- `Sparse chain text value`: the text has one character for every mandatory slot of the chain and
none for any other slot, and the value is extracted from it. -/
inductive Sparse : Chain → Text → Text → Prop
  | endOfLine : Sparse [.endOfLine] [] []
  | ellipsis (k : CharClass) : Sparse [.ellipsis k] [] []
  | fixed (d : Char) {rest : Chain} {text value : Text} :
      Sparse rest text value → Sparse (.fixed d :: rest) (d :: text) (d :: value)
  | free (d : Char) {rest : Chain} {text value : Text} :
      Sparse rest text value → Sparse (.free d :: rest) (d :: text) value
  | value {k : CharClass} {c : Char} {rest : Chain} {text value : Text} :
      k.accepts c = true → Sparse rest text value →
      Sparse (.value k :: rest) (c :: text) (c :: value)
  | optional (k : CharClass) {rest : Chain} {text value : Text} :
      Sparse rest text value → Sparse (.optional k :: rest) text value

variable {c : Char} {chain : Chain} {k : CharClass} {text value : Text}

/-! ### Sparse texts -/

theorem Regular.exists_sparse (h : chain.Regular) : ∃ text value, Sparse chain text value := by
  induction h with
  | endOfLine => exact ⟨_, _, .endOfLine⟩
  | ellipsis k => exact ⟨_, _, .ellipsis k⟩
  | fixed d _ ih =>
    obtain ⟨text, value, h⟩ := ih
    exact ⟨_, _, .fixed d h⟩
  | free d _ ih =>
    obtain ⟨text, value, h⟩ := ih
    exact ⟨_, _, .free d h⟩
  | value k _ ih =>
    obtain ⟨text, value, h⟩ := ih
    obtain ⟨c, hc⟩ := k.exists_accepts
    exact ⟨_, _, .value hc h⟩
  | optional k _ ih =>
    obtain ⟨text, value, h⟩ := ih
    exact ⟨_, _, .optional k h⟩

theorem Sparse.length_text (h : Sparse chain text value) : text.length = chain.minTextLength := by
  induction h with
  | endOfLine => rfl
  | ellipsis k => rfl
  | fixed _ _ ih | free _ _ ih | value _ _ ih => exact length_cons_eq_count rfl rfl ih
  | optional _ _ ih => exact length_eq_count rfl rfl ih

theorem Sparse.length_value (h : Sparse chain text value) :
    value.length = chain.minValueLength := by
  induction h with
  | endOfLine => rfl
  | ellipsis k => rfl
  | fixed _ _ ih | value _ _ ih => exact length_cons_eq_count rfl rfl ih
  | free _ _ ih | optional _ _ ih => exact length_eq_count rfl rfl ih

/-- A character that moves a run on is typed once more if it was used up, so that a slot is always
reached with the same character. -/
theorem Trace.exists_retyped {b : Bool} {step : Step} {typed : Text} {events : List Event}
    {left : Chain} (ht : Trace step.next ((c :: typed).map (·, b)) events left)
    (ho : Offer c chain (some step)) :
    ∃ typed e, Trace chain ((c :: typed).map (·, b)) (e :: events) left ∧ e.step = some step := by
  cases hc : step.consumed with
  | true => exact ⟨c :: typed, _, .consume ho hc ht, rfl⟩
  | false => exact ⟨typed, _, .pass ho hc ht, rfl⟩

/-- **Sparse texts can be reached.** A stray character passes the literals and the optional slots in
front of it; typed between the characters of the value slots, it leads to the sparse text. -/
theorem Sparse.exists_typed (h : Sparse chain text value)
    (hc : ∀ k : CharClass, k.accepts c = false) (b : Bool) :
    ∃ typed events left, Trace chain ((c :: typed).map (·, b)) events left ∧
      events.flatMap Event.written = text ∧ events.flatMap Event.extracted = value ∧
      left.any Slot.isMandatory = false := by
  induction h with
  | endOfLine => exact ⟨[], _, _, .drop .endOfLine (.done _), rfl, rfl, rfl⟩
  | ellipsis k => exact ⟨[], _, _, .drop (.ellipsisDrop (hc k)) (.done _), rfl, rfl, rfl⟩
  | @fixed d rest text value _ ih =>
    obtain ⟨typed, events, left, ht, hwritten, hextracted, hleft⟩ := ih
    obtain ⟨typed, e, ht, he⟩ := ht.exists_retyped (.fixed d rest)
    refine ⟨typed, e :: events, left, ht, ?_, ?_, hleft⟩
    · rw [List.flatMap_cons, Event.written, he, hwritten]
      rfl
    · rw [List.flatMap_cons, Event.extracted, he, hextracted]
      rfl
  | @free d rest text value _ ih =>
    obtain ⟨typed, events, left, ht, hwritten, hextracted, hleft⟩ := ih
    obtain ⟨typed, e, ht, he⟩ := ht.exists_retyped (.free d rest)
    refine ⟨typed, e :: events, left, ht, ?_, ?_, hleft⟩
    · rw [List.flatMap_cons, Event.written, he, hwritten]
      rfl
    · rw [List.flatMap_cons, Event.extracted, he, hextracted]
      rfl
  | @value k e rest text value he _ ih =>
    obtain ⟨typed, events, left, ht, hwritten, hextracted, hleft⟩ := ih
    refine ⟨e :: c :: typed, _, left, .drop (.valueDrop rest (hc k))
      (.consume (.value rest he) rfl ht), ?_, ?_, hleft⟩
    · exact congrArg (e :: ·) hwritten
    · exact congrArg (e :: ·) hextracted
  | @optional k rest text value _ ih =>
    obtain ⟨typed, events, left, ht, hwritten, hextracted, hleft⟩ := ih
    exact ⟨typed, _, left, .pass (.optionalSkip rest (hc k)) rfl ht, hwritten, hextracted, hleft⟩

/-- No complete run writes less than a sparse text. -/
theorem Sparse.length_le {marked : List (Char × Bool)} {events : List Event} {left : Chain}
    (hs : Sparse chain text value) (h : chain.Regular) (ht : Trace chain marked events left)
    (hleft : left.any Slot.isMandatory = false) :
    text.length ≤ (events.flatMap Event.written).length := by
  obtain ⟨pieces, hw, hwritten, -, -⟩ := ht.word
  rw [hs.length_text, ← hwritten]
  exact hw.minTextLength_le h hleft

/-! ### Full texts -/

/-- **Full texts.** A chain keeps a text of the greatest length, with a value of the greatest
length, up to its last slot. -/
theorem Regular.exists_full (h : chain.Regular) :
    ∃ text value s, Keeps chain text value [s] ∧ text.length = chain.maxTextLength ∧
      value.length = chain.maxValueLength := by
  induction h with
  | endOfLine => exact ⟨[], [], _, .done _, rfl, rfl⟩
  | ellipsis k => exact ⟨[], [], _, .done _, rfl, rfl⟩
  | fixed d _ ih =>
    obtain ⟨text, value, s, hk, htext, hvalue⟩ := ih
    exact ⟨_, _, s, hk.fixed d, length_cons_eq_count rfl rfl htext,
      length_cons_eq_count rfl rfl hvalue⟩
  | free d _ ih =>
    obtain ⟨text, value, s, hk, htext, hvalue⟩ := ih
    exact ⟨_, _, s, hk.free d, length_cons_eq_count rfl rfl htext, length_eq_count rfl rfl hvalue⟩
  | @value k rest _ ih =>
    obtain ⟨text, value, s, hk, htext, hvalue⟩ := ih
    obtain ⟨c, hc⟩ := k.exists_accepts
    have hk' := Keeps.take (.value rest hc) rfl hk
    exact ⟨_, _, s, hk', length_cons_eq_count rfl rfl htext, length_cons_eq_count rfl rfl hvalue⟩
  | @optional k rest _ ih =>
    obtain ⟨text, value, s, hk, htext, hvalue⟩ := ih
    obtain ⟨c, hc⟩ := k.exists_accepts
    have hk' := Keeps.take (.optional rest hc) rfl hk
    exact ⟨_, _, s, hk', length_cons_eq_count rfl rfl htext, length_cons_eq_count rfl rfl hvalue⟩

theorem keeps_replicate (hc : k.accepts c = true) (n : Nat) :
    Keeps [.ellipsis k] (List.replicate n c) (List.replicate n c) [.ellipsis k] := by
  induction n with
  | zero => exact .done _
  | succ n ih => exact .take (.ellipsis hc) rfl ih

/-- **Texts of any length.** An ellipsis at the end of a chain takes as many characters as are
typed. -/
theorem Regular.exists_long (h : chain.Regular) (hk : chain.getLast? = some (.ellipsis k))
    (n : Nat) :
    ∃ text value, Keeps chain text value [.ellipsis k] ∧ n ≤ text.length ∧ n ≤ value.length := by
  obtain ⟨text, value, s, hfull, -, -⟩ := h.exists_full
  obtain ⟨front, hfront⟩ := hfull.suffix
  rw [← hfront, List.getLast?_concat] at hk
  obtain rfl := Option.some.inj hk
  obtain ⟨c, hc⟩ := k.exists_accepts
  refine ⟨_, _, hfull.append (keeps_replicate hc n), ?_, ?_⟩
  · rw [List.length_append, List.length_replicate]
    exact Nat.le_add_left n _
  · rw [List.length_append, List.length_replicate]
    exact Nat.le_add_left n _

end Chain

end TextMask
