import TextMask.Chain.Summary
import TextMask.Proofs.Chain.Canonical

/-!
# Reading descriptions

A description shows literals as they are, so it can hold arrows, brackets and ends of lines that are
literals. It can be read back all the same. A symbol has one character or three, and the fourth
character from its start tells which: it is the head of the arrow behind one character, or the first
blank of the arrow behind three. So a description tells the whole chain, but for the class of an
ellipsis.

* `Slot.ofSymbol?`: the slot that a symbol stands for;
* `Chain.ofDescription?`: the chain that a description stands for;
* `Chain.cutAtArrows_intercalate`: symbols with arrows between them are found again;
* `Linked.exists_description`: each chain has a description, which is read back;
* `description_determines_chain`: the chains that have the same description.
-/

namespace TextMask

/-! ### Symbols of slots -/

namespace Slot

/-- The slot as far as its symbol tells it: an ellipsis is left without its class. -/
def told (s : Slot) : Slot := { s with charClass := if s.elliptical then none else s.charClass }

@[simp] theorem kind_told (s : Slot) : s.told.kind = s.kind := rfl

@[simp] theorem elliptical_told (s : Slot) : s.told.elliptical = s.elliptical := rfl

theorem told_eq_self {s : Slot} (h : s.elliptical = false) : s.told = s := by
  obtain ⟨kind, literal, charClass, elliptical⟩ := s
  cases h
  rfl

theorem symbol_told (s : Slot) : s.told.symbol = s.symbol := by
  obtain ⟨kind, literal, charClass, elliptical⟩ := s
  cases elliptical with
  | false => rfl
  | true => cases kind <;> rfl

/-- The slot that a symbol stands for, as far as the symbol tells it. -/
def ofSymbol? : Text → Option Slot
  | [c] => some (.free c)
  | ['\x7b', c, '\x7d'] => some (.fixed c)
  | ['[', c, ']'] => (Entry.ofChar? c).map fun e => (Entry.slot (none, e)).told
  | ['E', 'O', 'L'] => some .endOfLine
  | _ => none

/-- The text is the symbol of the slot and can be read: it has one character or three, and it stands
for the slot. -/
structure Legible (s : Slot) (t : Text) : Prop where
  symbol_eq : s.symbol = .ok t
  length_eq : t.length = 1 ∨ t.length = 3
  ofSymbol?_eq : ofSymbol? t = some s.told

theorem legible_symbol (symbol : ValueSymbol) :
    Legible symbol.slot ['[', symbol.toChar, ']'] := by
  refine ⟨?_, Or.inr rfl, ?_⟩
  · obtain ⟨k, b⟩ := symbol
    cases b <;> rfl
  · have hentry : Entry.ofChar? symbol.toChar = some (.symbol symbol) :=
      Entry.ofChar?_toChar (.symbol symbol)
    show (Entry.ofChar? symbol.toChar).map (fun e => (Entry.slot (none, e)).told) = _
    rw [hentry]
    rfl

/-- The slots inside a chain have symbols that can be read. -/
theorem Inner.exists_legible {s : Slot} (h : s.Inner) : ∃ t, s.Legible t := by
  rcases h.cases with ⟨d, rfl⟩ | ⟨d, rfl⟩ | ⟨symbol, rfl⟩
  · exact ⟨['\x7b', d, '\x7d'], rfl, Or.inr rfl, rfl⟩
  · exact ⟨[d], rfl, Or.inl rfl, rfl⟩
  · exact ⟨_, legible_symbol symbol⟩

end Slot

namespace Chain

variable {chain chain' rest : Chain} {s : Slot} {t : Text} {ts : List Text}

/-! ### Symbols of chains -/

/-- The symbols of a chain, whatever closes it. -/
theorem symbols_eq (chain : Chain) :
    chain.symbols = do
      let shown ← chain.slots.mapM Slot.symbol
      return shown ++
        if chain.slots.getLast?.any (·.elliptical) then [] else [['E', 'O', 'L']] := by
  rw [symbols]
  cases chain.slots.getLast? with
  | none => rfl
  | some s =>
    obtain ⟨kind, literal, charClass, elliptical⟩ := s
    cases elliptical with
    | false => rfl
    | true => simp only [Option.any_some, if_true, List.append_nil]

theorem symbols_cons (hkind : (s.kind != .endOfLine) = true) (he : s.elliptical = false)
    (hs : s.symbol = .ok t) (h : rest.symbols = .ok ts) :
    symbols (s :: rest) = .ok (t :: ts) := by
  have hlast : (s :: slots rest).getLast?.any (·.elliptical) =
      (slots rest).getLast?.any (·.elliptical) := by
    cases slots rest with
    | nil => exact he
    | cons s' l => rw [List.getLast?_cons_cons]
  rw [symbols_eq] at h ⊢
  obtain ⟨shown, hshown, hpure⟩ := Except.bind_eq_ok_iff.mp h
  obtain rfl := Except.ok.inj hpure
  rw [slots_cons hkind, hlast, List.mapM_cons, hs, hshown]
  rfl

theorem slots_map_told (chain : Chain) :
    slots (chain.map Slot.told) = chain.slots.map Slot.told := by
  rw [slots, List.takeWhile_map]
  simp only [Function.comp_def, Slot.kind_told]
  rfl

/-- A description depends only on what symbols tell. -/
theorem description_map_told (chain : Chain) :
    description (chain.map Slot.told) = chain.description := by
  have hsymbol : Slot.symbol ∘ Slot.told = Slot.symbol := funext Slot.symbol_told
  have hlast : (slots (chain.map Slot.told)).getLast?.any (·.elliptical) =
      chain.slots.getLast?.any (·.elliptical) := by
    simp only [slots_map_told, List.getLast?_map, Option.any_map, Slot.elliptical_told]
  have hsymbols : symbols (chain.map Slot.told) = chain.symbols := by
    rw [symbols_eq, symbols_eq, hlast, slots_map_told, List.mapM_map, hsymbol]
  rw [description, hsymbols]
  rfl

/-- The texts are the symbols of the chain, and can be read. -/
structure SpelledBy (ts : List Text) (chain : Chain) : Prop where
  symbols_eq : chain.symbols = .ok ts
  length_eq : ∀ t ∈ ts, t.length = 1 ∨ t.length = 3
  ofSymbol?_eq : ts.mapM Slot.ofSymbol? = some (chain.map Slot.told)

theorem SpelledBy.ne_nil (h : SpelledBy ts (s :: rest)) : ts ≠ [] := by
  rintro rfl
  cases h.ofSymbol?_eq

theorem spelledBy_endOfLine : SpelledBy [['E', 'O', 'L']] [.endOfLine] :=
  ⟨rfl, List.forall_mem_singleton.mpr (Or.inr rfl), rfl⟩

theorem spelledBy_ellipsis (k : CharClass) : SpelledBy [['[', '…', ']']] [.ellipsis k] :=
  ⟨rfl, List.forall_mem_singleton.mpr (Or.inr rfl), rfl⟩

theorem SpelledBy.cons (hs : s.Inner) (h : SpelledBy ts rest) :
    ∃ t, SpelledBy (t :: ts) (s :: rest) := by
  obtain ⟨t, ht⟩ := hs.exists_legible
  refine ⟨t, symbols_cons hs.kind_ne_endOfLine hs.1 ht.symbol_eq h.symbols_eq,
    List.forall_mem_cons.mpr ⟨ht.length_eq, h.length_eq⟩, ?_⟩
  rw [List.mapM_cons, ht.ofSymbol?_eq, h.ofSymbol?_eq]
  rfl

/-- **Symbols of a chain.** Each slot has a symbol that can be read, the end of the line too. -/
theorem Linked.exists_spelledBy (h : Linked chain) : ∃ ts, SpelledBy ts chain := by
  induction h with
  | endOfLine => exact ⟨_, spelledBy_endOfLine⟩
  | ellipsis => exact ⟨_, spelledBy_ellipsis _⟩
  | inherited symbol =>
    obtain ⟨t, ht⟩ := (spelledBy_ellipsis symbol.charClass).cons (Slot.inner_symbol symbol)
    exact ⟨_, ht⟩
  | cons hs _ ih =>
    obtain ⟨ts, hts⟩ := ih
    obtain ⟨t, ht⟩ := hts.cons hs
    exact ⟨t :: ts, ht⟩

/-! ### Reading descriptions -/

/-- Cuts a description at its arrows, which stand behind one character or behind three. -/
def cutAtArrows : Text → List Text
  | a :: ' ' :: '-' :: '>' :: ' ' :: rest => [a] :: cutAtArrows rest
  | a :: b :: c :: ' ' :: '-' :: '>' :: ' ' :: rest => [a, b, c] :: cutAtArrows rest
  | text => [text]

/-- The chain that a description stands for, as far as the description tells it. -/
def ofDescription? (text : Text) : Option Chain := (cutAtArrows text).mapM Slot.ofSymbol?

theorem cutAtArrows_symbol (h : t.length = 1 ∨ t.length = 3) : cutAtArrows t = [t] := by
  rcases h with h | h
  · obtain ⟨a, rfl⟩ := List.length_eq_one_iff.mp h
    rfl
  · obtain ⟨a, b, c, rfl⟩ := List.length_eq_three.mp h
    rw [cutAtArrows]
    · intro _ _ harrow
      cases harrow
    · intro _ _ _ _ harrow
      cases harrow

/-- The arrow behind a symbol is found where it stands, whatever the symbol holds. -/
theorem cutAtArrows_append (h : t.length = 1 ∨ t.length = 3) (text : Text) :
    cutAtArrows (t ++ arrow ++ text) = t :: cutAtArrows text := by
  rcases h with h | h
  · obtain ⟨a, rfl⟩ := List.length_eq_one_iff.mp h
    rfl
  · obtain ⟨a, b, c, rfl⟩ := List.length_eq_three.mp h
    -- the fourth character is a blank: no arrow stands behind the first one
    show cutAtArrows (a :: b :: c :: ' ' :: '-' :: '>' :: ' ' :: text) = _
    rw [cutAtArrows]

/-- **Symbols with arrows between them are found again.** -/
theorem cutAtArrows_intercalate (hne : ts ≠ []) (h : ∀ t ∈ ts, t.length = 1 ∨ t.length = 3) :
    cutAtArrows (List.intercalate arrow ts) = ts := by
  induction ts with
  | nil => exact absurd rfl hne
  | cons t ts ih =>
    obtain ⟨ht, hts⟩ := List.forall_mem_cons.mp h
    cases ts with
    | nil =>
      rw [List.intercalate_singleton]
      exact cutAtArrows_symbol ht
    | cons t' ts =>
      rw [List.intercalate_cons_cons, cutAtArrows_append ht, ih (List.cons_ne_nil _ _) hts]

/-- **Descriptions are read back.** Each chain has a description, and the description stands for the
chain. -/
theorem Linked.exists_description (h : Linked chain) :
    ∃ text, chain.description = .ok text ∧ ofDescription? text = some (chain.map Slot.told) := by
  obtain ⟨ts, hts⟩ := h.exists_spelledBy
  have hne : ts ≠ [] := by
    cases h <;> exact hts.ne_nil
  refine ⟨List.intercalate arrow ts, ?_, ?_⟩
  · rw [description, hts.symbols_eq]
    rfl
  · rw [ofDescription?, cutAtArrows_intercalate hne hts.length_eq, hts.ofSymbol?_eq]

/-! ### Chains with the same description -/

theorem map_told_eq_self {body : List Slot} (h : ∀ s ∈ body, s.Inner) :
    body.map Slot.told = body := by
  rw [List.map_congr_left fun s hs => Slot.told_eq_self (h s hs).1, List.map_id']

/-- The same is told of two chains if they are equal, or differ in the class of an ellipsis at their
ends. -/
theorem Canonical.map_told_eq_iff (h : Canonical chain) (h' : Canonical chain') :
    chain.map Slot.told = chain'.map Slot.told ↔
      chain = chain' ∨
        ∃ body k k', chain = body ++ [.ellipsis k] ∧ chain' = body ++ [.ellipsis k'] := by
  constructor
  · intro htold
    obtain ⟨body, last, rfl, hbody, hlast⟩ := h
    obtain ⟨body', last', rfl, hbody', hlast'⟩ := h'
    rw [List.map_append, List.map_append, map_told_eq_self hbody, map_told_eq_self hbody',
      List.map_singleton, List.map_singleton] at htold
    obtain ⟨rfl, hends⟩ := List.append_singleton_inj.mp htold
    rcases hlast with rfl | ⟨k, rfl, -⟩
    · rcases hlast' with rfl | ⟨k', rfl, -⟩
      · exact Or.inl rfl
      · cases hends
    · rcases hlast' with rfl | ⟨k', rfl, -⟩
      · cases hends
      · exact Or.inr ⟨body, k, k', rfl, rfl⟩
  · rintro (rfl | ⟨body, k, k', rfl, rfl⟩)
    · rfl
    · rw [List.map_append, List.map_append]
      rfl

end Chain

/-- **A description determines the chain** of a format, but for the class of an ellipsis at its end.
Each chain has a description. Two of them are the same just if the chains agree slot by slot, except
that an ellipsis that closes both may take other characters in one than in the other. -/
theorem description_determines_chain {p q : Text} {chain chain' : Chain}
    (hp : Chain.compile p = .ok chain) (hq : Chain.compile q = .ok chain') :
    ∃ text text', chain.description = .ok text ∧ chain'.description = .ok text' ∧
      (text = text' ↔
        chain = chain' ∨
          ∃ body k k', chain = body ++ [.ellipsis k] ∧ chain' = body ++ [.ellipsis k']) := by
  have hlinked := Chain.linked_of_compile hp
  have hlinked' := Chain.linked_of_compile hq
  obtain ⟨text, htext, hread⟩ := hlinked.exists_description
  obtain ⟨text', htext', hread'⟩ := hlinked'.exists_description
  refine ⟨text, text', htext, htext', ?_⟩
  rw [← hlinked.canonical.map_told_eq_iff hlinked'.canonical]
  constructor
  · intro htexts
    rw [htexts] at hread
    exact Option.some.inj (hread.symm.trans hread')
  · intro htold
    have hdescription : chain.description = chain'.description := by
      rw [← chain.description_map_told, htold, chain'.description_map_told]
    exact Except.ok.inj (htext.symm.trans (hdescription.trans htext'))

/-- Two formats with an arrow of literals in front of their ellipses, which take other characters in
one than in the other; and literals that look like an ellipsis, which are not described like one. -/
theorem description_determines_chain_arrow :
    (∃ chain chain' text,
      Chain.compile [' ', '-', '>', ' ', '[', '0', '…', ']'] = .ok chain ∧
      Chain.compile [' ', '-', '>', ' ', '[', '0', ']', '[', '…', ']'] = .ok chain' ∧
      chain ≠ chain' ∧ chain.description = .ok text ∧ chain'.description = .ok text) ∧
    ∃ chain chain' text text',
      Chain.compile ['\\', '[', '…', '\\', ']'] = .ok chain ∧
      Chain.compile ['[', '…', ']'] = .ok chain' ∧
      chain.description = .ok text ∧ chain'.description = .ok text' ∧ text ≠ text' := by
  have hcompile : Chain.compile [' ', '-', '>', ' ', '[', '0', '…', ']'] =
      .ok [.free ' ', .free '-', .free '>', .free ' ', .value .numeric, .ellipsis .numeric] := rfl
  have hcompile' : Chain.compile [' ', '-', '>', ' ', '[', '0', ']', '[', '…', ']'] =
      .ok [.free ' ', .free '-', .free '>', .free ' ', .value .numeric,
        .ellipsis .alphanumeric] := rfl
  have hliterals : Chain.compile ['\\', '[', '…', '\\', ']'] =
      .ok [.free '[', .free '…', .free ']', .endOfLine] := rfl
  have hellipsis : Chain.compile ['[', '…', ']'] = .ok [.ellipsis .alphanumeric] := rfl
  obtain ⟨text, text', htext, htext', hsame⟩ := description_determines_chain hcompile hcompile'
  have htexts : text = text' := hsame.mpr (Or.inr
    ⟨[.free ' ', .free '-', .free '>', .free ' ', .value .numeric], _, _, rfl, rfl⟩)
  rw [← htexts] at htext'
  obtain ⟨other, other', hother, hother', hdiffer⟩ :=
    description_determines_chain hliterals hellipsis
  refine ⟨⟨_, _, text, hcompile, hcompile', by decide, htext, htext'⟩,
    _, _, other, other', hliterals, hellipsis, hother, hother', fun hothers => ?_⟩
  rcases hdiffer.mp hothers with heq | ⟨body, k, k', hbody, -⟩
  · cases heq
  · have hlast := congrArg List.getLast? hbody
    rw [List.getLast?_concat] at hlast
    cases hlast

end TextMask
