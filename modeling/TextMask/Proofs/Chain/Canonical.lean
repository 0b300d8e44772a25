import TextMask.Proofs.Chain.Reading
import TextMask.Proofs.Pattern.Acceptance

/-!
# Canonical chains

A chain that is read from a pattern consists of literals and of places for characters, and is closed
by the end of the line or by an ellipsis. The ellipsis takes any letter or numeral, unless it takes
over the class of the place in front of it.

* `Chain.Canonical`: a body of literals and places for characters, and a slot that closes it;
* `Chain.Linked`: the same, slot by slot;
* `Chain.canonical_iff_linked`: the two agree;
* `Context.of_slot`: which slots a character can write;
* `Chain.linked_of_scan`: each pattern that can be scanned gives a linked chain.
-/

namespace TextMask

/-! ### Bodies and their ends -/

namespace Slot

/-- A slot inside a chain: it is not elliptical, and has a literal of one character and no class, or
a class and no literal. -/
def Inner (s : Slot) : Prop :=
  s.elliptical = false ∧
    ((s.kind = .fixed ∨ s.kind = .free) ∧ (∃ c, s.literal = some [c]) ∧ s.charClass = none ∨
      (s.kind = .value ∨ s.kind = .optional) ∧ s.literal = none ∧ ∃ k, s.charClass = some k)

/-- A slot that can close a chain behind the given slot: the end of the line, an ellipsis for any
letter or numeral, or one that takes over the class of the place in front of it. -/
def Closes (previous : Option Slot) (s : Slot) : Prop :=
  s = .endOfLine ∨ ∃ k, s = .ellipsis k ∧
    (k = .alphanumeric ∨ previous = some (.value k) ∨ previous = some (.optional k))

theorem inner_fixed (d : Char) : (fixed d).Inner := ⟨rfl, Or.inl ⟨Or.inl rfl, ⟨d, rfl⟩, rfl⟩⟩

theorem inner_free (d : Char) : (free d).Inner := ⟨rfl, Or.inl ⟨Or.inr rfl, ⟨d, rfl⟩, rfl⟩⟩

theorem inner_symbol (s : ValueSymbol) : s.slot.Inner := by
  obtain ⟨k, b⟩ := s
  cases b with
  | false => exact ⟨rfl, Or.inr ⟨Or.inl rfl, rfl, k, rfl⟩⟩
  | true => exact ⟨rfl, Or.inr ⟨Or.inr rfl, rfl, k, rfl⟩⟩

/-- The slots inside a chain are those of literals and of symbols. -/
theorem Inner.cases {s : Slot} (h : s.Inner) :
    (∃ d, s = .fixed d) ∨ (∃ d, s = .free d) ∨ ∃ symbol : ValueSymbol, s = symbol.slot := by
  obtain ⟨kind, literal, charClass, elliptical⟩ := s
  obtain ⟨he, ⟨hkind, ⟨d, hd⟩, hk⟩ | ⟨hkind, hd, k, hk⟩⟩ := h
  · cases he; cases hd; cases hk
    rcases hkind with hfixed | hfree
    · cases hfixed
      exact Or.inl ⟨d, rfl⟩
    · cases hfree
      exact Or.inr (Or.inl ⟨d, rfl⟩)
  · cases he; cases hd; cases hk
    rcases hkind with hvalue | hoptional
    · cases hvalue
      exact Or.inr (Or.inr ⟨⟨k, false⟩, rfl⟩)
    · cases hoptional
      exact Or.inr (Or.inr ⟨⟨k, true⟩, rfl⟩)

theorem Inner.kind_ne_endOfLine {s : Slot} (h : s.Inner) : (s.kind != .endOfLine) = true := by
  rcases h.cases with ⟨d, rfl⟩ | ⟨d, rfl⟩ | ⟨⟨k, b⟩, rfl⟩
  · rfl
  · rfl
  · cases b <;> rfl

/-- The end of the line and an ellipsis for any letter or numeral need nothing in front of them. -/
theorem Closes.of_none {s : Slot} (h : s.Closes none) (previous : Option Slot) :
    s.Closes previous := by
  rcases h with rfl | ⟨k, rfl, hk | hk | hk⟩
  · exact Or.inl rfl
  · exact Or.inr ⟨k, rfl, Or.inl hk⟩
  · cases hk
  · cases hk

end Slot

namespace Chain

/-- A body of inner slots, and a slot that can close it. -/
def Canonical (chain : Chain) : Prop :=
  ∃ body last, chain = body ++ [last] ∧ (∀ s ∈ body, s.Inner) ∧ last.Closes body.getLast?

/-- Canonical chains slot by slot. An ellipsis with a class of its own comes with the symbol from
which it has the class. -/
inductive Linked : Chain → Prop
  | endOfLine : Linked [.endOfLine]
  | ellipsis : Linked [.ellipsis .alphanumeric]
  | inherited (s : ValueSymbol) : Linked [s.slot, .ellipsis s.charClass]
  | cons {s : Slot} {rest : Chain} : s.Inner → Linked rest → Linked (s :: rest)

theorem Linked.canonical {chain : Chain} (h : Linked chain) : Canonical chain := by
  induction h with
  | endOfLine => exact ⟨[], _, rfl, List.forall_mem_nil _, Or.inl rfl⟩
  | ellipsis => exact ⟨[], _, rfl, List.forall_mem_nil _, Or.inr ⟨_, rfl, Or.inl rfl⟩⟩
  | inherited s =>
    refine ⟨[s.slot], _, rfl, List.forall_mem_singleton.mpr (Slot.inner_symbol s),
      Or.inr ⟨s.charClass, rfl, Or.inr ?_⟩⟩
    obtain ⟨k, b⟩ := s
    cases b with
    | false => exact Or.inl rfl
    | true => exact Or.inr rfl
  | @cons s rest hs _ ih =>
    obtain ⟨body, last, rfl, hbody, hlast⟩ := ih
    refine ⟨s :: body, last, rfl, List.forall_mem_cons.mpr ⟨hs, hbody⟩, ?_⟩
    cases body with
    | nil => exact hlast.of_none _
    | cons b body =>
      rw [List.getLast?_cons_cons]
      exact hlast

/-- A slot that needs nothing in front of it is a chain. -/
theorem linked_of_closes_none {s : Slot} (h : s.Closes none) : Linked [s] := by
  rcases h with rfl | ⟨k, rfl, rfl | hk | hk⟩
  · exact .endOfLine
  · exact .ellipsis
  · cases hk
  · cases hk

/-- A slot with what it needs in front of it is a chain. -/
theorem linked_of_closes_some {s last : Slot} (hs : s.Inner) (h : last.Closes (some s)) :
    Linked [s, last] := by
  rcases h with rfl | ⟨k, rfl, rfl | hk | hk⟩
  · exact .cons hs .endOfLine
  · exact .cons hs .ellipsis
  · obtain rfl := Option.some.inj hk
    exact .inherited ⟨k, false⟩
  · obtain rfl := Option.some.inj hk
    exact .inherited ⟨k, true⟩

theorem Canonical.linked {chain : Chain} (h : Canonical chain) : Linked chain := by
  obtain ⟨body, last, rfl, hbody, hlast⟩ := h
  induction body with
  | nil => exact linked_of_closes_none hlast
  | cons s body ih =>
    obtain ⟨hs, hrest⟩ := List.forall_mem_cons.mp hbody
    cases body with
    | nil => exact linked_of_closes_some hs hlast
    | cons b body =>
      rw [List.getLast?_cons_cons] at hlast
      exact .cons hs (ih hrest hlast)

/-- **Canonical chains slot by slot.** -/
theorem canonical_iff_linked {chain : Chain} : Canonical chain ↔ Linked chain :=
  ⟨Canonical.linked, Linked.canonical⟩

end Chain

/-! ### Slots that a character writes -/

namespace Context

/-- A character writes a literal outside of value groups. In a value group it writes the place of a
symbol, or an ellipsis with the class that it takes over from the character before it. -/
theorem of_slot {context : Context} {previous : Option Char} {c : Char} {s : Slot}
    (h : context.slot previous c = .ok s) :
    s.Inner ∧ context ≠ .value ∨
      context = .value ∧ ((∃ k, s = .ellipsis k ∧ previous.bind inherited? = some k) ∨
        ∃ symbol : ValueSymbol, s = symbol.slot ∧ inherited? c = some symbol.charClass) := by
  cases context with
  | free =>
    obtain rfl := Except.ok.inj h
    exact Or.inl ⟨Slot.inner_free c, nofun⟩
  | fixed =>
    obtain rfl := Except.ok.inj h
    exact Or.inl ⟨Slot.inner_fixed c, nofun⟩
  | value =>
    refine Or.inr ⟨rfl, ?_⟩
    rw [slot] at h
    split at h
    · split at h
      next k hk =>
        obtain rfl := Except.ok.inj h
        exact Or.inl ⟨k, rfl, hk⟩
      · cases h
    · have hinherited {symbol : ValueSymbol} (hc : ValueSymbol.ofChar? c = some symbol) :
          inherited? c = some symbol.charClass := by
        rw [← ValueSymbol.toChar_of_ofChar? hc]
        exact inherited?_toChar symbol
      split at h
      next k hc =>
        obtain rfl := Except.ok.inj h
        exact Or.inr ⟨⟨k, false⟩, rfl, hinherited hc⟩
      next k hc =>
        obtain rfl := Except.ok.inj h
        exact Or.inr ⟨⟨k, true⟩, rfl, hinherited hc⟩
      · cases h

/-- What ends a scan is an ellipsis in a value group. -/
theorem of_elliptical {context : Context} {previous : Option Char} {c : Char} {s : Slot}
    (h : context.slot previous c = .ok s) (he : s.elliptical = true) :
    context = .value ∧ ∃ k, s = .ellipsis k ∧ previous.bind inherited? = some k := by
  rcases of_slot h with ⟨hinner, -⟩ | ⟨hvalue, hellipsis | ⟨symbol, rfl, -⟩⟩
  · cases hinner.1.symm.trans he
  · exact ⟨hvalue, hellipsis⟩
  · cases symbol.slot_elliptical.symm.trans he

/-- A bracket hands on no class but that of any letter or numeral. -/
theorem inherited?_bracket {context : Context} {c : Char} {k : CharClass}
    (hc : ofBracket? c = some context) (hk : inherited? c = some k) : k = .alphanumeric := by
  cases ho : Bracket.ofOpening? c with
  | some b =>
    obtain rfl := Bracket.eq_of_choice (f := Bracket.opening) ho
    cases b with
    | square => exact (Option.some.inj hk).symm
    | curly => cases hk
  | none =>
    cases hclosing : Bracket.ofClosing? c with
    | some b =>
      obtain rfl := Bracket.eq_of_choice (f := Bracket.closing) hclosing
      cases b <;> cases hk
    | none =>
      rw [ofBracket?, ho, hclosing] at hc
      cases hc

end Context

/-! ### Patterns are read as linked chains -/

namespace Chain

/-- A chain that is linked, or one that an ellipsis makes up, with a class that it takes over from
the character in front of it in a value group. -/
def LinkedBehind (cur : Cursor) (chain : Chain) : Prop :=
  Linked chain ∨
    ∃ k, chain = [.ellipsis k] ∧ cur.context = .value ∧
      cur.previous.bind Context.inherited? = some k

variable {cur : Cursor} {previous : Option Char} {c : Char} {s : Slot} {chain rest : Chain}

/-- If the character hands on no class of its own, the chain behind it is linked. -/
theorem LinkedBehind.linked (h : LinkedBehind cur chain)
    (hno : cur.context = .value →
      ∀ k, cur.previous.bind Context.inherited? = some k → k = .alphanumeric) : Linked chain := by
  rcases h with h | ⟨k, rfl, hvalue, hk⟩
  · exact h
  · obtain rfl := hno hvalue k hk
    exact .ellipsis

/-- An ellipsis closes what is scanned. -/
theorem linkedBehind_of_elliptical (hs : cur.context.slot cur.previous c = .ok s)
    (he : s.elliptical = true) : LinkedBehind cur [s] := by
  obtain ⟨hvalue, k, rfl, hk⟩ := Context.of_elliptical hs he
  exact Or.inr ⟨k, rfl, hvalue, hk⟩

/-- A slot in front of what is scanned behind it. -/
theorem LinkedBehind.cons (hs : cur.context.slot cur.previous c = .ok s)
    (he : s.elliptical = false)
    (hprevious : ∀ k, previous.bind Context.inherited? = some k → Context.inherited? c = some k)
    (h : LinkedBehind { cur with previous := previous } rest) : LinkedBehind cur (s :: rest) := by
  rcases Context.of_slot hs with ⟨hinner, hno⟩ | ⟨-, ⟨k, rfl, -⟩ | ⟨symbol, rfl, hc⟩⟩
  · exact Or.inl (.cons hinner (h.linked fun hvalue => absurd hvalue hno))
  · cases he
  · rcases h with hlinked | ⟨k, rfl, -, hk⟩
    · exact Or.inl (.cons (Slot.inner_symbol symbol) hlinked)
    · -- the ellipsis comes right behind the symbol, whose class it has
      obtain rfl := Option.some.inj (hc.symm.trans (hprevious k hk))
      exact Or.inl (.inherited symbol)

theorem linkedBehind_of_scan {p : Text} {r : Scanned} (h : scan cur p = .ok r) :
    LinkedBehind cur r.chain := by
  induction p generalizing cur r with
  | nil =>
    obtain rfl := Except.ok.inj h
    exact Or.inl .endOfLine
  | cons c p ih =>
    obtain ⟨slot, next, hstep, hnext⟩ := scanWith_cons_eq_ok h
    rcases Cursor.of_step hstep with ⟨rfl, -, hmove⟩ | ⟨s, previous, rfl, hs, rfl, hprevious⟩
    · obtain ⟨-, hnext⟩ | ⟨_, ⟨⟩, -⟩ | ⟨_, _, ⟨⟩, -⟩ := hnext
      rcases hmove with ⟨context, hc, rfl⟩ | ⟨rfl, rfl⟩
      · exact Or.inl ((ih hnext).linked fun _ k hk => Context.inherited?_bracket hc hk)
      · exact Or.inl ((ih hnext).linked nofun)
    · obtain ⟨⟨⟩, -⟩ | ⟨_, ⟨⟩, he, rfl⟩ | ⟨_, r', ⟨⟩, he, hnext, rfl⟩ := hnext
      · exact linkedBehind_of_elliptical hs he
      · refine LinkedBehind.cons hs he (fun k hk => ?_) (ih hnext)
        rcases hprevious with ⟨-, -, rfl⟩ | ⟨-, rfl⟩
        · cases hk
        · exact hk

/-- **Patterns are scanned as linked chains**, whether or not they are in normal form. -/
theorem linked_of_scan {p : Text} {r : Scanned} (h : scan .start p = .ok r) : Linked r.chain :=
  (linkedBehind_of_scan h).linked nofun

theorem linked_of_read {pattern : Text} (h : read pattern = .ok chain) : Linked chain := by
  obtain ⟨found, hscan, rfl⟩ := read_eq_ok_iff.mp h
  exact linked_of_scan hscan

theorem linked_of_compile {format : Text} (h : compile format = .ok chain) : Linked chain := by
  obtain ⟨normal, found, -, hscan, rfl⟩ := compile_eq_ok_iff.mp h
  exact linked_of_scan hscan

end Chain

end TextMask
