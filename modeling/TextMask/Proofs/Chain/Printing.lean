import TextMask.Proofs.Chain.Canonical
import TextMask.Proofs.Chain.Meaning
import TextMask.Proofs.Pattern.Grammar

/-!
# Printing chains as formats

A canonical chain can be written as a format, slot by slot: literals as they are, escaped where that
is necessary, and every place for a character in a group of its own. The format compiles to the
chain again. So the canonical chains are just the chains that formats compile to.

* `Chain.print`: the format of a chain;
* `Slot.Inner.exists_item`: the text of a slot is an item of a pattern, which stands for the slot;
* `Linked.compile_print`: the format of a canonical chain compiles to the chain;
* `compile_image`: the chains that formats compile to.
-/

namespace TextMask

/-! ### The format of a chain -/

/-- The character as a format writes it to mean just this character. -/
def escape (c : Char) : Text := if c ∈ Grammar.reserved then [escapeMark, c] else [c]

namespace Slot

/-- What stands for the slot in a format, without brackets around it. -/
def content (s : Slot) : Text :=
  match s.kind, s.charClass with
  | .fixed, _ | .free, _ => s.literalText.flatMap escape
  | .value, some k => if s.elliptical then [ellipsisMark] else [k.mandatorySymbol]
  | .optional, some k => [k.optionalSymbol]
  | _, _ => []

/-- The slot in a format. What is given goes into its group, if it asks for characters. -/
def print (s : Slot) (behind : Text) : Text :=
  match s.kind with
  | .fixed => Bracket.curly.opening :: (s.content ++ [Bracket.curly.closing])
  | .free => s.content
  | .value | .optional =>
    Bracket.square.opening :: (s.content ++ behind ++ [Bracket.square.closing])
  | .endOfLine => []

/-- An ellipsis that is written into the group of the symbol in front of it, since it takes other
characters in a group of its own. -/
def isInherited (s : Slot) : Bool := s.elliptical && s.charClass != some .alphanumeric

end Slot

namespace Chain

/-- The chain as a format. -/
def print : Chain → Text
  | [] => []
  | [s] => s.print []
  | s :: next :: rest =>
    if next.isInherited then s.print [ellipsisMark] ++ print rest
    else s.print [] ++ print (next :: rest)

theorem print_inherited {s next : Slot} (h : next.isInherited = true) :
    print [s, next] = s.print [ellipsisMark] := by
  rw [print, if_pos h]
  exact List.append_nil _

/-- A linked chain does not begin with an ellipsis that belongs into the group of a symbol. -/
theorem Linked.print_cons {rest : Chain} (h : Linked rest) (s : Slot) :
    print (s :: rest) = s.print [] ++ print rest := by
  have hhead : ∃ next rest', rest = next :: rest' ∧ next.isInherited = false := by
    cases h with
    | endOfLine => exact ⟨_, _, rfl, rfl⟩
    | ellipsis => exact ⟨_, _, rfl, rfl⟩
    | inherited symbol =>
      refine ⟨_, _, rfl, ?_⟩
      rw [Slot.isInherited, symbol.slot_elliptical, Bool.false_and]
    | cons hs _ =>
      refine ⟨_, _, rfl, ?_⟩
      rw [Slot.isInherited, hs.1, Bool.false_and]
  obtain ⟨next, rest', rfl, hnext⟩ := hhead
  rw [print, hnext]
  rfl

end Chain

/-! ### Slots as items -/

theorem Literal.exists_escape (d : Char) : ∃ l : Literal, l.char = d ∧ l.text = escape d := by
  refine ⟨⟨d, isReserved d, fun h => h⟩, rfl, ?_⟩
  rw [text, escape]
  simp only [isReserved_iff]

/-- **The text of a slot is an item**, which stands for this slot. -/
theorem Slot.Inner.exists_item {s : Slot} (h : s.Inner) :
    ∃ i : Item, i.text = s.print [] ∧ i.slots = [s] := by
  rcases h.cases with ⟨d, rfl⟩ | ⟨d, rfl⟩ | ⟨symbol, rfl⟩
  · obtain ⟨l, rfl, htext⟩ := Literal.exists_escape d
    refine ⟨.fixed [l], ?_, rfl⟩
    show Bracket.curly.opening :: (l.text ++ [] ++ [Bracket.curly.closing]) = _
    rw [htext]
    rfl
  · obtain ⟨l, rfl, htext⟩ := Literal.exists_escape d
    refine ⟨.free l, ?_, rfl⟩
    show l.text = escape l.char ++ []
    rw [htext, List.append_nil]
  · refine ⟨.value (.ofEntries [.symbol symbol]), ?_, ?_⟩
    · rw [Item.text_value_ofEntries]
      obtain ⟨k, b⟩ := symbol
      cases b <;> rfl
    · obtain ⟨k, b⟩ := symbol
      cases b <;> rfl

/-- A symbol and an ellipsis behind it, in one group, stand for a place and an ellipsis of the same
class. -/
theorem ValueSymbol.exists_item_inherited (s : ValueSymbol) :
    ∃ i : Item, i.text = s.slot.print [ellipsisMark] ∧ i.slots = [s.slot, .ellipsis s.charClass] := by
  refine ⟨.value (.ofEntries [.symbol s, .ellipsis]), ?_, ?_⟩
  · rw [Item.text_value_ofEntries]
    obtain ⟨k, b⟩ := s
    cases b <;> rfl
  · obtain ⟨k, b⟩ := s
    cases b <;> rfl

/-! ### Formats of canonical chains -/

namespace Chain

/-- Items whose text is the format of the chain, and whose slots make it up. -/
def PrintedBy (items : List Item) (chain : Chain) : Prop :=
  items.flatMap Item.text = chain.print ∧
    attach (items.flatMap Item.slots) [.endOfLine] = chain

theorem PrintedBy.cons {s : Slot} {rest : Chain} {items : List Item} (hs : s.Inner)
    (hrest : Linked rest) (h : PrintedBy items rest) : ∃ i, PrintedBy (i :: items) (s :: rest) := by
  obtain ⟨i, htext, hslots⟩ := hs.exists_item
  refine ⟨i, ?_, ?_⟩
  · rw [List.flatMap_cons, htext, h.1, hrest.print_cons]
  · rw [List.flatMap_cons, hslots, List.singleton_append, attach_cons hs.1, h.2]

theorem exists_printedBy_ellipsis : ∃ items, PrintedBy items [.ellipsis .alphanumeric] :=
  ⟨[.value (.ofEntries [.ellipsis])], rfl, rfl⟩

theorem Linked.exists_printedBy {chain : Chain} (h : Linked chain) :
    ∃ items, PrintedBy items chain := by
  induction h with
  | endOfLine => exact ⟨[], rfl, rfl⟩
  | ellipsis => exact exists_printedBy_ellipsis
  | inherited s =>
    by_cases hk : s.charClass = .alphanumeric
    · -- the ellipsis has a group of its own
      obtain ⟨items, hitems⟩ := exists_printedBy_ellipsis
      obtain ⟨i, hi⟩ := hitems.cons (Slot.inner_symbol s) .ellipsis
      rw [hk]
      exact ⟨i :: items, hi⟩
    · have hinherited : (Slot.ellipsis s.charClass).isInherited = true :=
        bne_iff_ne.mpr fun h => hk (Option.some.inj h)
      obtain ⟨i, htext, hslots⟩ := s.exists_item_inherited
      refine ⟨[i], ?_, ?_⟩
      · rw [List.flatMap_singleton, htext, print_inherited hinherited]
      · rw [List.flatMap_singleton, hslots, attach_cons s.slot_elliptical]
        rfl
  | cons hs hrest ih =>
    obtain ⟨items, hitems⟩ := ih
    obtain ⟨i, hi⟩ := hitems.cons hs hrest
    exact ⟨i :: items, hi⟩

/-- **Formats of canonical chains.** The format of a canonical chain compiles to the chain. -/
theorem Linked.compile_print {chain : Chain} (h : Linked chain) :
    compile chain.print = .ok chain := by
  obtain ⟨items, htext, hchain⟩ := h.exists_printedBy
  have hcompile := Outline.compile_text ⟨items, false⟩
  have hformat : Outline.text ⟨items, false⟩ = chain.print := (List.append_nil _).trans htext
  rw [hformat, Outline.chain, hchain] at hcompile
  exact hcompile

end Chain

/-- **The chains that formats compile to** are the canonical ones, and each of them is compiled from
its format. -/
theorem compile_image (chain : Chain) :
    ((∃ format, Chain.compile format = .ok chain) ↔ chain.Canonical) ∧
      (chain.Canonical → Chain.compile chain.print = .ok chain) := by
  rw [Chain.canonical_iff_linked]
  refine ⟨⟨?_, fun h => ⟨chain.print, h.compile_print⟩⟩, fun h => h.compile_print⟩
  rintro ⟨format, h⟩
  exact Chain.linked_of_compile h

/-- Literals that have to be escaped, one that looks like an ellipsis, and an ellipsis that takes
digits. -/
theorem compile_image_escaped :
    Chain.Canonical [.free '[', .fixed '\\', .free '…', .optional .letter, .value .numeric,
      .ellipsis .numeric] ∧
    Chain.compile ['\\', '[', '\x7b', '\\', '\\', '\x7d', '…', '[', 'a', ']', '[', '0', '…', ']'] =
      .ok [.free '[', .fixed '\\', .free '…', .optional .letter, .value .numeric,
        .ellipsis .numeric] := by
  have hlinked : Chain.Linked [.free '[', .fixed '\\', .free '…', .optional .letter,
      .value .numeric, .ellipsis .numeric] :=
    .cons (Slot.inner_free _) <| .cons (Slot.inner_fixed _) <| .cons (Slot.inner_free _) <|
      .cons (Slot.inner_symbol ⟨.letter, true⟩) <| .inherited ⟨.numeric, false⟩
  exact ⟨hlinked.canonical, (compile_image _).2 hlinked.canonical⟩

end TextMask
