import TextMask.Proofs.Chain.Reading
import TextMask.Proofs.Pattern.Acceptance
import TextMask.Proofs.Pattern.NormalOrder

/-!
# Meaning of formats

The chain of a format can be read off its outline. Every literal is a slot, and every run of a
value group is its mandatory places, then its optional places, then its ellipsis; the first
ellipsis ends the chain.

* `Outline.chain`: the chain that an outline stands for;
* `FamilyRun.attach_inOrder`: a run in normal order gives the slots of the run, but for ellipses
  behind the first one;
* `Item.attach_normal`: hence the normal form of an item gives the slots of the item;
* `compile_meaning`: a format compiles to the chain of its outline.
-/

namespace TextMask

/-! ### The chain of an outline -/

/-- The slots of a run: its mandatory places, its optional places, and its ellipsis. -/
def FamilyRun.slots (r : FamilyRun) : List Slot :=
  List.replicate (r.entries.countP Entry.isMandatory) (.value r.family) ++
    List.replicate (r.entries.countP Entry.isOptional) (.optional r.family) ++
    if r.entries.countP Entry.isEllipsis = 0 then [] else [.ellipsis r.family]

/-- The slots of a value group. Ellipses that it begins with take any letter or numeral. -/
def ValueGroup.slots (g : ValueGroup) : List Slot :=
  (if g.leading = 0 then [] else [.ellipsis .alphanumeric]) ++ g.runs.flatMap FamilyRun.slots

/-- The slots of an item. -/
def Item.slots : Item → List Slot
  | .free l => [.free l.char]
  | .fixed ls => ls.map fun l => .fixed l.char
  | .value g => g.slots

/-- The chain that an outline stands for. -/
def Outline.chain (o : Outline) : Chain :=
  Chain.attach (o.items.flatMap Item.slots) [.endOfLine]

/-! ### Runs in normal order -/

/-- Ellipses behind the first one are of no account. -/
theorem Chain.attach_replicate_ellipsis (n : Nat) (k : CharClass) (tail : Chain) :
    attach (List.replicate n (.ellipsis k)) tail =
      attach (if n = 0 then [] else [.ellipsis k]) tail := by
  cases n <;> rfl

namespace FamilyRun

/-- The slots of a run in normal order are those of the run, with its ellipses repeated. -/
theorem map_slot_inOrder (r : FamilyRun) :
    (Entry.withFamily none (Entry.inOrder r.entries)).map Entry.slot =
      List.replicate (r.entries.countP Entry.isMandatory) (.value r.family) ++
        List.replicate (r.entries.countP Entry.isOptional) (.optional r.family) ++
        List.replicate (r.entries.countP Entry.isEllipsis) (.ellipsis r.family) := by
  have hfamily : (if r.entries.countP Entry.isOptional = 0 then
      if r.entries.countP Entry.isMandatory = 0 then none else some r.family
      else some r.family) = some r.family := by
    rcases r.exists_symbol with h | h
    · rw [if_neg h, ite_self]
    · rw [if_neg h]
  rw [inOrder_entries, List.append_assoc, Entry.withFamily_replicate_append,
    Entry.withFamily_replicate_append, hfamily, Entry.withFamily_replicate_ellipsis]
  simp only [List.map_append, List.map_replicate, List.append_assoc]
  rfl

theorem attach_inOrder (r : FamilyRun) (tail : Chain) :
    Chain.attach ((Entry.withFamily none (Entry.inOrder r.entries)).map Entry.slot) tail =
      Chain.attach r.slots tail := by
  rw [map_slot_inOrder, slots, Chain.attach_append, Chain.attach_replicate_ellipsis,
    ← Chain.attach_append]

theorem attach_flatMap_inOrder (rs : List FamilyRun) (tail : Chain) :
    Chain.attach (rs.flatMap fun r =>
        (Entry.withFamily none (Entry.inOrder r.entries)).map Entry.slot) tail =
      Chain.attach (rs.flatMap slots) tail := by
  induction rs with
  | nil => rfl
  | cons r rs ih =>
    rw [List.flatMap_cons, Chain.attach_append, ih, attach_inOrder, ← Chain.attach_append,
      List.flatMap_cons]

end FamilyRun

/-- The runs of a value group, in normal order, give the slots of the group. -/
theorem ValueGroup.attach_inOrder (g : ValueGroup) (tail : Chain) :
    Chain.attach ((Entry.runs g.entries).flatMap fun run =>
        (Entry.withFamily none (Entry.inOrder run)).map Entry.slot) tail =
      Chain.attach g.slots tail := by
  have hruns := FamilyRun.attach_flatMap_inOrder g.runs tail
  rw [runs_entries, List.flatMap_map, cuts, List.flatMap_append, Chain.attach_append,
    List.flatMap_map, hruns, slots, Chain.attach_append]
  split
  · rfl
  next hn =>
    obtain ⟨n, hn⟩ := Nat.exists_eq_succ_of_ne_zero hn
    rw [List.flatMap_singleton, Entry.inOrder_replicate_ellipsis,
      Entry.withFamily_replicate_ellipsis, hn]
    rfl

/-! ### The meaning of a format -/

namespace Item

theorem attach_normal (i : Item) (tail : Chain) :
    Chain.attach (i.normal.flatMap rawSlots) tail = Chain.attach i.slots tail := by
  cases i with
  | free l => rfl
  | fixed ls =>
    show Chain.attach ((fixed ls).slots ++ []) tail = _
    rw [List.append_nil]
  | value g =>
    rw [normal, List.flatMap_map]
    simp only [rawSlots, ValueGroup.entries_ofEntries]
    exact g.attach_inOrder tail

theorem attach_flatMap_normal (items : List Item) (tail : Chain) :
    Chain.attach ((items.flatMap normal).flatMap rawSlots) tail =
      Chain.attach (items.flatMap slots) tail := by
  induction items with
  | nil => rfl
  | cons i items ih =>
    rw [List.flatMap_cons, List.flatMap_append, Chain.attach_append, ih, attach_normal,
      ← Chain.attach_append, List.flatMap_cons]

end Item

/-- A pattern with an outline compiles to the chain of the outline. -/
theorem Outline.compile_text (o : Outline) : Chain.compile o.text = .ok o.chain := by
  have hnormal : normalize o.text = .ok o.normal.text :=
    Except.mapError_eq_ok_iff.mpr o.normalForm_text
  have hread := Chain.readFrom_glyphs o.normal
  rw [normal, Item.attach_flatMap_normal] at hread
  -- the normal form is scanned by characters, and gives what its glyphs give
  rw [← Glyph.read_outline, ← Chain.map_chain_scan_start] at hread
  obtain ⟨found, hscan, hchain⟩ := Except.map_eq_ok_iff.mp hread
  exact Chain.compile_eq_ok_iff.mpr ⟨_, found, hnormal, hscan, hchain⟩

/-- **The meaning of a format.** A pattern that has a normal form has one outline, and it compiles
to the chain that the outline stands for. -/
theorem compile_meaning {format normal : Text} (h : normalize format = .ok normal) :
    (∃! o : Outline, o.text = format) ∧
      ∀ o : Outline, o.text = format → Chain.compile format = .ok o.chain := by
  obtain ⟨o, rfl⟩ := Outline.exists_of_normalForm (Except.mapError_eq_ok_iff.mp h)
  refine ⟨⟨o, rfl, fun o' ho' => Outline.text_injective ho'⟩, fun o' ho' => ?_⟩
  obtain rfl := Outline.text_injective ho'
  exact o'.compile_text

/-- Escapes inside and outside of groups, two families in one group, an ellipsis, and an escape
mark that is left over. -/
theorem compile_meaning_mixed :
    (∃! o : Outline, o.text = ['\\', '[', '\x7b', 'a', '\\', '\x7d', '\x7d', '[', '9', '0', 'a',
      '…', 'A', ']', '\\']) ∧
    Chain.compile ['\\', '[', '\x7b', 'a', '\\', '\x7d', '\x7d', '[', '9', '0', 'a', '…', 'A', ']',
        '\\'] =
      .ok [.free '[', .fixed 'a', .fixed '\x7d', .value .numeric, .optional .numeric,
        .value .letter, .optional .letter, .ellipsis .letter] := by
  have hplain : isReserved 'a' = true → false = true := by decide
  have hnormal : normalize ['\\', '[', '\x7b', 'a', '\\', '\x7d', '\x7d', '[', '9', '0', 'a', '…',
      'A', ']', '\\'] = .ok ['\\', '[', '\x7b', 'a', '\\', '\x7d', '\x7d', '[', '0', '9', ']',
      '[', 'A', 'a', '…', ']', '\\'] := rfl
  obtain ⟨hone, hchain⟩ := compile_meaning hnormal
  refine ⟨hone, (hchain ⟨[.free ⟨'[', true, fun _ => rfl⟩,
    .fixed [⟨'a', false, hplain⟩, ⟨'\x7d', true, fun _ => rfl⟩],
    .value (.ofEntries [.symbol ⟨.numeric, true⟩, .symbol ⟨.numeric, false⟩,
      .symbol ⟨.letter, true⟩, .ellipsis, .symbol ⟨.letter, false⟩])], true⟩ rfl).trans rfl⟩

end TextMask
