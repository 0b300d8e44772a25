import TextMask.Proofs.Chain.Keeping
import TextMask.Proofs.Mask.Word

/-!
# Separated chains

An optional slot takes a character whenever it can, and does not ask whether the character was
meant for a slot behind it. In a separated chain the question does not come up: what the next
slot that is not optional can take or write, the optional slot does not take. The output of a run
through a separated chain is kept, whatever the run has dropped, inserted and skipped.

* `Slot.Apart`: the slots that an optional slot of a class cannot be confused with;
* `Chain.Separated`: the chains in which every optional slot is apart from the next one that is not;
* `Trace.head_written`: what is written first behind an optional slot that was left empty;
* `Keeps.of_ellipsis`: an ellipsis shares its characters with the optional slots in front of it;
* `Trace.keeps_of_separated`, `Trail.keeps_of_lags`: what a run has written and completed is kept.
-/

namespace TextMask

/-- A slot that takes and writes no character of the class, or an ellipsis, or the end of the
line. -/
inductive Slot.Apart (k : CharClass) : Slot → Prop
  | endOfLine : Apart k .endOfLine
  | ellipsis (k' : CharClass) : Apart k (.ellipsis k')
  | fixed {d : Char} : k.accepts d = false → Apart k (.fixed d)
  | free {d : Char} : k.accepts d = false → Apart k (.free d)
  | value {k' : CharClass} : (∀ c, k.accepts c = true → k'.accepts c = false) → Apart k (.value k')

namespace Chain

/-- Every optional slot is apart from the first slot behind it that is not optional. -/
def Separated (chain : Chain) : Prop :=
  ∀ k rest, Slot.optional k :: rest <:+ chain →
    ∃ s, rest.find? (·.kind != .optional) = some s ∧ s.Apart k

variable {c d : Char} {chain left rest slow fast : Chain} {s : Slot} {k : CharClass}
  {text : Text} {marked : List (Char × Bool)} {events : List Event} {steps : List Step}

theorem Separated.suffix (h : chain.Separated) (hs : rest <:+ chain) : rest.Separated :=
  fun k rest' hr => h k rest' (hr.trans hs)

theorem separated_nil : Separated [] := fun _ _ hs => nomatch List.suffix_nil.mp hs

theorem Separated.cons (h : rest.Separated) (hs : (s.kind != .optional) = true) :
    Separated (s :: rest) := by
  intro k rest' hsuffix
  rcases List.suffix_cons_iff.mp hsuffix with heq | htail
  · obtain ⟨rfl, -⟩ := List.cons.inj heq
    cases hs
  · exact h k rest' htail

theorem Separated.optional (h : rest.Separated) (hs : rest.find? (·.kind != .optional) = some s)
    (ha : s.Apart k) : Separated (.optional k :: rest) := by
  intro k' rest' hsuffix
  rcases List.suffix_cons_iff.mp hsuffix with heq | htail
  · obtain ⟨hslot, rfl⟩ := List.cons.inj heq
    obtain rfl : k' = k := Option.some.inj (congrArg Slot.charClass hslot)
    exact ⟨s, hs, ha⟩
  · exact h k' rest' htail

/-! ### What is written first -/

/-- A value slot writes a character of its class first, after any it has to drop. -/
theorem Trace.head_written_value (ht : Trace (.value k :: rest) marked events left)
    (hd : (events.flatMap Event.written).head? = some d) : k.accepts d = true := by
  generalize hchain : Slot.value k :: rest = chain at ht
  induction ht with
  | done => cases hd
  | drop ho ht ih => exact ih hd hchain
  | consume ho hc ht ih =>
    subst hchain
    cases ho with
    | value rest hk =>
      obtain rfl := Option.some.inj hd
      exact hk
  | pass ho hc ht ih =>
    subst hchain
    cases ho with
    | value rest hk => cases hc

theorem Trace.written_endOfLine (ht : Trace [.endOfLine] marked events left) :
    events.flatMap Event.written = [] := by
  generalize hchain : [Slot.endOfLine] = chain at ht
  induction ht with
  | done => rfl
  | drop ho ht ih => exact ih hchain
  | consume ho hc ht ih => subst hchain; cases ho
  | pass ho hc ht ih => subst hchain; cases ho

/-- An ellipsis is never left, and extracts what it writes. -/
theorem Trace.written_ellipsis (ht : Trace [.ellipsis k] marked events left) :
    left = [.ellipsis k] ∧ (∀ d ∈ events.flatMap Event.written, k.accepts d = true) ∧
      events.flatMap Event.extracted = events.flatMap Event.written := by
  obtain ⟨pieces, hw, hwritten, hextracted, -⟩ := ht.word
  obtain ⟨hleft, repeated, hrep, htext, hvalue, -⟩ := hw.of_ellipsis
  rw [← hwritten, ← hextracted, htext, hvalue]
  exact ⟨hleft, hrep, rfl⟩

/-- **What is written first** when a character is offered that a class does not hold, to a chain
whose first slot that is not optional is apart from the class: nothing, or a character that the
class does not hold either, unless all that is written comes from an ellipsis. -/
theorem Trace.head_written {b : Bool} (ht : Trace chain ((c, b) :: marked) events left)
    (hc : k.accepts c = false) (hs : chain.find? (·.kind != .optional) = some s)
    (ha : s.Apart k) :
    (∀ d, (events.flatMap Event.written).head? = some d → k.accepts d = false) ∨
      ∃ k', Lags chain [.ellipsis k'] ∧ left = [.ellipsis k'] ∧
        (∀ d ∈ events.flatMap Event.written, k'.accepts d = true) ∧
        events.flatMap Event.extracted = events.flatMap Event.written := by
  generalize hmarked : (c, b) :: marked = offered at ht
  induction ht with
  | done => cases hmarked
  | drop ho ht ih =>
    obtain ⟨hcb, -⟩ := List.cons.inj hmarked
    obtain ⟨rfl, rfl⟩ := Prod.mk.inj hcb
    cases ho with
    | valueDrop rest hk =>
      obtain rfl := Option.some.inj hs
      cases ha with
      | value hdisjoint =>
        refine Or.inl fun d hd => ?_
        have hk' := ht.head_written_value hd
        cases hkd : k.accepts d with
        | false => rfl
        | true => rw [hdisjoint d hkd] at hk'; cases hk'
    | ellipsisDrop hk => exact Or.inr ⟨_, .refl _, ht.written_ellipsis⟩
    | endOfLine =>
      refine Or.inl fun d hd => ?_
      have hnil := ht.written_endOfLine
      rw [List.flatMap_cons, hnil] at hd
      cases hd
  | consume ho hconsumed ht ih =>
    obtain ⟨hcb, -⟩ := List.cons.inj hmarked
    obtain ⟨rfl, rfl⟩ := Prod.mk.inj hcb
    refine Or.inl fun d hd => ?_
    rw [List.flatMap_cons, Event.written, Option.bind_some, ho.insert_of_consume hconsumed] at hd
    obtain rfl := Option.some.inj hd
    exact hc
  | pass ho hconsumed ht ih =>
    cases ho with
    | fixed e rest =>
      obtain rfl := Option.some.inj hs
      refine Or.inl fun d hd => ?_
      obtain rfl := Option.some.inj hd
      cases ha with
      | fixed he => exact he
    | free e rest =>
      obtain rfl := Option.some.inj hs
      refine Or.inl fun d hd => ?_
      obtain rfl := Option.some.inj hd
      cases ha with
      | free he => exact he
    | optionalSkip rest hk =>
      rcases ih hs hmarked with h | ⟨k', hl, hleft⟩
      · exact Or.inl h
      · exact Or.inr ⟨k', .optional _ hl, hleft⟩
    | value _ _ | optional _ _ | ellipsis _ => cases hconsumed

/-! ### Outputs of separated chains are kept -/

/-- Optional slots in front of an ellipsis can take some of its characters, but not change them. -/
theorem Keeps.of_ellipsis (hl : Lags chain [.ellipsis k]) (ht : ∀ c ∈ text, k.accepts c = true) :
    ∃ left, Keeps chain text text left ∧ Lags left [.ellipsis k] := by
  induction text generalizing chain with
  | nil => exact ⟨chain, .done chain, hl⟩
  | cons c text ih =>
    obtain ⟨hc, ht⟩ := List.forall_mem_cons.mp ht
    generalize hfast : [Slot.ellipsis k] = fast at hl
    -- the optional slots are tried one after the other
    induction hl with
    | refl =>
      subst hfast
      obtain ⟨left, h, hl⟩ := ih (.refl _) ht
      exact ⟨left, .take (.ellipsis hc) rfl h, hl⟩
    | @optional k' slow fast hl ihl =>
      cases hk : k'.accepts c with
      | true =>
        subst hfast
        obtain ⟨left, h, hl⟩ := ih hl ht
        exact ⟨left, .take (.optional slow hk) rfl h, hl⟩
      | false =>
        obtain ⟨left, h, hl⟩ := ihl hfast
        exact ⟨left, .skip hk h, hl⟩

/-- **The output of a separated chain is kept**, whatever a run had to drop, to insert and to
skip. -/
theorem Trace.keeps_of_separated (ht : Trace chain marked events left) (hs : chain.Separated) :
    ∃ left', Keeps chain (events.flatMap Event.written) (events.flatMap Event.extracted) left' ∧
      Lags left' left := by
  induction ht with
  | done chain => exact ⟨chain, .done chain, .refl chain⟩
  | drop ho _ ih => exact ih hs
  | consume ho hc _ ih =>
    obtain ⟨left', h, hl⟩ := ih (hs.suffix ho.next_suffix)
    exact ⟨left', ho.keeps (by rw [ho.insert_of_consume hc]; rfl) h, hl⟩
  | @pass chain left c b marked events step ho hc ht ih =>
    obtain ⟨left', h, hl⟩ := ih (hs.suffix ho.next_suffix)
    cases ho with
    | fixed d rest => exact ⟨left', Offer.keeps (.fixed d rest) rfl h, hl⟩
    | free d rest => exact ⟨left', Offer.keeps (.free d rest) rfl h, hl⟩
    | optionalSkip rest hk =>
      obtain ⟨s, hfind, ha⟩ := hs _ rest (List.suffix_refl _)
      rcases ht.head_written hk hfind ha with hd | ⟨k', hlags, rfl, hclass, hvalue⟩
      · obtain ⟨left'', h', hl'⟩ := h.behind_optional hd
        exact ⟨left'', h', hl'.trans hl⟩
      · obtain ⟨left'', h', hl'⟩ := Keeps.of_ellipsis (.optional _ hlags) hclass
        refine ⟨left'', ?_, hl'⟩
        show Keeps _ (events.flatMap Event.written) (events.flatMap Event.extracted) left''
        rw [hvalue]
        exact h'
    | value _ _ | optional _ _ | ellipsis _ => cases hc

/-! ### Completed literals are kept -/

theorem Lags.find?_eq (h : Lags slow fast) :
    slow.find? (·.kind != .optional) = fast.find? (·.kind != .optional) := by
  induction h with
  | refl => rfl
  | optional k _ ih => exact ih

theorem Trail.keeps (ht : Trail chain steps left) :
    Keeps chain (steps.flatMap fun s => s.insert.getD []) (steps.flatMap fun s => s.value.getD [])
      left := by
  induction ht with
  | stop chain => exact .done chain
  | fixed d _ ih => exact ih.fixed d
  | free d _ ih => exact ih.free d

/-- Completion writes first what the chain begins with. -/
theorem Trail.head_insert (ht : Trail chain steps left)
    (hs : chain.find? (·.kind != .optional) = some s) (ha : s.Apart k)
    (hd : (steps.flatMap fun s => s.insert.getD []).head? = some d) : k.accepts d = false := by
  cases ht with
  | stop => cases hd
  | fixed e _ =>
    obtain rfl := Option.some.inj hs
    obtain rfl := Option.some.inj hd
    cases ha with
    | fixed he => exact he
  | free e _ =>
    obtain rfl := Option.some.inj hs
    obtain rfl := Option.some.inj hd
    cases ha with
    | free he => exact he

/-- **Completed literals are kept**, even if the chain lags behind the one that was completed. -/
theorem Trail.keeps_of_lags (ht : Trail fast steps left) (hl : Lags slow fast)
    (hs : slow.Separated) :
    ∃ left', Keeps slow (steps.flatMap fun s => s.insert.getD [])
      (steps.flatMap fun s => s.value.getD []) left' ∧ Lags left' left := by
  induction hl with
  | refl => exact ⟨left, ht.keeps, .refl left⟩
  | optional k hl ih =>
    obtain ⟨left', h, hl'⟩ := ih ht (hs.suffix (List.suffix_cons _ _))
    obtain ⟨s, hfind, ha⟩ := hs k _ (List.suffix_refl _)
    rw [hl.find?_eq] at hfind
    obtain ⟨left'', h', hl''⟩ := h.behind_optional fun d hd => ht.head_insert hfind ha hd
    exact ⟨left'', h', hl''.trans hl'⟩

end Chain

end TextMask
