import TextMask.Proofs.Chain.Cursor
import TextMask.Proofs.Pattern.Cuts

/-!
# Reading patterns as they stand

A pattern with an outline is read slot by slot, in the order in which it is written. The character
in front of an ellipsis tells which characters the ellipsis takes, and the first ellipsis ends the
chain.

* `Chain.attach`: slots in front of a chain;
* `Item.rawSlots`: the slots of an item in the order in which they are written;
* `Chain.readFrom_entries`: the entries of a value group give their slots;
* `Chain.readFrom_glyphs`: an outline gives the slots of its items.
-/

namespace TextMask

/-! ### Slots -/

/-- Puts slots in front of a chain. An ellipsis among them is the end of the chain. -/
def Chain.attach : List Slot → Chain → Chain
  | [], tail => tail
  | s :: slots, tail => if s.elliptical then [s] else s :: attach slots tail

/-- The slot of a symbol. -/
def ValueSymbol.slot (s : ValueSymbol) : Slot :=
  if s.optional then .optional s.charClass else .value s.charClass

theorem ValueSymbol.slot_elliptical (s : ValueSymbol) : s.slot.elliptical = false := by
  obtain ⟨k, b⟩ := s
  cases b <;> rfl

/-- The slot of an entry with a family. An ellipsis takes the characters of the family, or any
letter or numeral if it has none. -/
def Entry.slot : Option CharClass × Entry → Slot
  | (_, .symbol s) => s.slot
  | (family, .ellipsis) => .ellipsis (family.getD .alphanumeric)

/-- The slots of an item in the order in which they are written. -/
def Item.rawSlots : Item → List Slot
  | .free l => [.free l.char]
  | .fixed ls => ls.map fun l => .fixed l.char
  | .value g => (Entry.withFamily none g.entries).map Entry.slot

namespace Chain

theorem attach_cons {s : Slot} (h : s.elliptical = false) (slots : List Slot) (tail : Chain) :
    attach (s :: slots) tail = s :: attach slots tail := by
  rw [attach, h]
  rfl

theorem attach_append (slots slots' : List Slot) (tail : Chain) :
    attach (slots ++ slots') tail = attach slots (attach slots' tail) := by
  induction slots with
  | nil => rfl
  | cons s slots ih =>
    rw [List.cons_append, attach, attach, ih]

end Chain

/-! ### Characters of value groups -/

namespace Context

theorem ofBracket?_eq_none {c : Char} (h : (Glyph.plain c).Inert) : ofBracket? c = none := by
  have hopens : Bracket.ofOpening? c = none := h.1
  have hcloses : Bracket.ofClosing? c = none := h.2
  rw [ofBracket?, hopens, hcloses]

theorem inherited?_toChar (s : ValueSymbol) : inherited? s.toChar = some s.charClass := by
  obtain ⟨k, b⟩ := s
  cases k <;> cases b <;> decide

theorem slot_entry {family : Option CharClass} {previous : Char}
    (h : inherited? previous = some (family.getD .alphanumeric)) (e : Entry) :
    Context.value.slot (some previous) e.toChar = .ok (Entry.slot (family, e)) := by
  cases e with
  | symbol s =>
    obtain ⟨k, b⟩ := s
    cases k <;> cases b <;> rfl
  | ellipsis =>
    have hbind : (some previous).bind inherited? = some (family.getD .alphanumeric) := h
    rw [slot, Entry.toChar, if_pos rfl, hbind]
    rfl

end Context

/-! ### Reading glyphs -/

namespace Chain

/-- The chain of the glyphs in a context, behind the given character. -/
def readFrom (context : Context) (previous : Option Char) (gs : List Glyph) :
    Except PatternFault Chain := Scanned.chain <$> scanWith Cursor.read ⟨context, previous⟩ gs

/-- The chain of a pattern is that of its glyphs. -/
theorem map_chain_scan_start (p : Text) :
    Scanned.chain <$> scan .start p = readFrom .free none (Glyph.read p) :=
  congrArg (Scanned.chain <$> ·) (scan_eq_scanWith_read rfl p)

variable {context : Context} {previous previous' : Option Char} {c : Char} {g : Glyph} {s : Slot}
  {rest : List Glyph} {tail : Chain}

theorem readFrom_write (hg : Cursor.read ⟨context, previous⟩ g = .ok (some s, ⟨context, previous'⟩))
    (helliptical : s.elliptical = false) (h : readFrom context previous' rest = .ok tail) :
    readFrom context previous (g :: rest) = .ok (s :: tail) := by
  obtain ⟨r, hr, rfl⟩ := Except.map_eq_ok_iff.mp h
  rw [readFrom, scanWith_write hg helliptical, hr]
  rfl

theorem readFrom_plain (hc : Context.ofBracket? c = none) (hs : context.slot previous c = .ok s)
    (helliptical : s.elliptical = false) (h : readFrom context (some c) rest = .ok tail) :
    readFrom context previous (.plain c :: rest) = .ok (s :: tail) := by
  refine readFrom_write ?_ helliptical h
  rw [Cursor.read, hc]
  exact Cursor.write_eq hs

theorem readFrom_escaped (hs : context.slot (some escapeMark) c = .ok s)
    (helliptical : s.elliptical = false)
    (h : readFrom context (if c = escapeMark then none else some c) rest = .ok tail) :
    readFrom context previous (.escaped c :: rest) = .ok (s :: tail) :=
  readFrom_write (Cursor.write_eq hs) helliptical h

theorem readFrom_ellipsis {k : CharClass} (hc : Context.ofBracket? c = none)
    (hs : context.slot previous c = .ok (.ellipsis k)) :
    readFrom context previous (.plain c :: rest) = .ok [.ellipsis k] := by
  have hread : Cursor.read ⟨context, previous⟩ (.plain c) =
      .ok (some (.ellipsis k), ⟨context, some c⟩) := by
    rw [Cursor.read, hc]
    exact Cursor.write_eq hs
  rw [readFrom, scanWith_ellipsis hread rfl]
  rfl

/-- A literal is a slot, in free text and in fixed groups. -/
theorem readFrom_literal (l : Literal) {slot : Char → Slot}
    (hslot : ∀ previous c, context.slot previous c = .ok (slot c))
    (helliptical : ∀ c, (slot c).elliptical = false)
    (h : ∀ previous, readFrom context previous rest = .ok tail) :
    readFrom context previous (l.glyph :: rest) = .ok (slot l.char :: tail) := by
  have hinert := l.glyph_inert
  obtain ⟨c, b, _⟩ := l
  cases b with
  | true => exact readFrom_escaped (hslot _ c) (helliptical c) (h _)
  | false =>
    have hbracket := Context.ofBracket?_eq_none hinert
    exact readFrom_plain hbracket (hslot _ c) (helliptical c) (h _)

theorem readFrom_fixed (ls : List Literal) (h : ∀ previous, readFrom .free previous rest = .ok tail)
    (previous : Option Char) :
    readFrom .fixed previous (ls.map Literal.glyph ++ .plain Bracket.curly.closing :: rest) =
      .ok (attach (ls.map fun l => .fixed l.char) tail) := by
  induction ls generalizing previous with
  | nil => exact h _
  | cons l ls ih => exact readFrom_literal l (fun _ _ => rfl) (fun _ => rfl) ih

/-- The entries of a value group give their slots. The family that an ellipsis takes over is known
from the character in front of it. -/
theorem readFrom_entries (es : List Entry) (h : ∀ previous, readFrom .free previous rest = .ok tail)
    {family : Option CharClass} {previous : Char}
    (hfamily : Context.inherited? previous = some (family.getD .alphanumeric)) :
    readFrom .value (some previous)
        (es.map Entry.glyph ++ .plain Bracket.square.closing :: rest) =
      .ok (attach ((Entry.withFamily family es).map Entry.slot) tail) := by
  induction es generalizing family previous with
  | nil => exact h _
  | cons e es ih =>
    have hbracket := Context.ofBracket?_eq_none e.glyph_inert
    have hslot := Context.slot_entry hfamily e
    cases e with
    | symbol s =>
      have hinherited : Context.inherited? s.toChar =
          some ((some s.charClass).getD .alphanumeric) := Context.inherited?_toChar s
      have hrest := ih hinherited
      show _ = Except.ok (attach (s.slot :: _) tail)
      rw [attach_cons s.slot_elliptical]
      exact readFrom_plain hbracket hslot s.slot_elliptical hrest
    | ellipsis => exact readFrom_ellipsis hbracket hslot

theorem readFrom_item (i : Item) (h : ∀ previous, readFrom .free previous rest = .ok tail)
    (previous : Option Char) :
    readFrom .free previous (i.glyphs ++ rest) = .ok (attach i.rawSlots tail) := by
  cases i with
  | free l => exact readFrom_literal l (fun _ _ => rfl) (fun _ => rfl) h
  | fixed ls =>
    show readFrom .fixed (some Bracket.curly.opening)
      ((ls.map Literal.glyph ++ [.plain Bracket.curly.closing]) ++ rest) = _
    rw [List.append_assoc]
    exact readFrom_fixed ls h _
  | value g =>
    show readFrom .value (some Bracket.square.opening)
      ((g.entries.map Entry.glyph ++ [.plain Bracket.square.closing]) ++ rest) = _
    rw [List.append_assoc]
    exact readFrom_entries g.entries h rfl

theorem readFrom_items (items : List Item) (h : ∀ previous, readFrom .free previous rest = .ok tail)
    (previous : Option Char) :
    readFrom .free previous (items.flatMap Item.glyphs ++ rest) =
      .ok (attach (items.flatMap Item.rawSlots) tail) := by
  induction items generalizing previous with
  | nil => exact h _
  | cons i items ih =>
    rw [List.flatMap_cons, List.append_assoc, List.flatMap_cons, attach_append]
    exact readFrom_item i ih _

/-- **Reading as it stands.** A pattern gives the slots of its outline in the order in which they
are written. -/
theorem readFrom_glyphs (o : Outline) :
    readFrom .free none o.glyphs = .ok (attach (o.items.flatMap Item.rawSlots) [.endOfLine]) := by
  refine readFrom_items o.items (fun previous => ?_) none
  cases o.dangling <;> rfl

end Chain

end TextMask
