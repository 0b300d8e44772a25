import TextMask.Chain.Basic
import TextMask.Pattern.NormalForm

/-!
# From patterns to chains

`Chain.scan` goes through a pattern character by character, without checking its brackets: the last
bracket decides what the following characters mean. It knows no glyphs; whether a character is escaped
it tells from the character before it. `Chain.read` links the slots that the scan finds in a pattern as
it stands, and `Chain.compile` those that it finds in the normal form of a pattern, so that it accepts
exactly the patterns that have one.

* `Cursor`, `Cursor.step`: where a scan stands, and what one character does there;
* `scanWith`: the loop of a scan;
* `Scanned`, `ScanStop`: the slots that were found, and where the scan has stopped;
* `Scanned.chain`: the slots as a chain.
-/

namespace TextMask

/-- What the characters of a pattern mean where they stand. -/
inductive Context where
  | free
  | fixed
  | value
  deriving DecidableEq, Repr

namespace Context

/-- The context behind a bracket. -/
def ofBracket? (c : Char) : Option Context :=
  match Bracket.ofOpening? c, Bracket.ofClosing? c with
  | some .square, _ => some .value
  | some .curly, _ => some .fixed
  | none, some _ => some .free
  | none, none => none

/-- The class that an ellipsis takes over from the character before it. -/
def inherited? (previous : Char) : Option CharClass :=
  if previous = ellipsisMark ∨ previous = Bracket.square.opening then some .alphanumeric
  else (ValueSymbol.ofChar? previous).map (·.charClass)

/-- The slot that a character writes in a context, behind the given character. -/
def slot (previous : Option Char) (c : Char) : Context → Except PatternFault Slot
  | .free => .ok (.free c)
  | .fixed => .ok (.fixed c)
  | .value =>
    if c = ellipsisMark then
      match previous.bind inherited? with
      | some k => .ok (.ellipsis k)
      | none => .error .looseEllipsis
    else
      match ValueSymbol.ofChar? c with
      | some ⟨k, false⟩ => .ok (.value k)
      | some ⟨k, true⟩ => .ok (.optional k)
      | none => .error (.unsupported c none)

end Context

/-- Where a scan stands: what the next character means, and the character before it. -/
structure Cursor where
  context : Context
  previous : Option Char
  deriving DecidableEq, Repr

namespace Cursor

/-- In front of a pattern. -/
def start : Cursor := ⟨.free, none⟩

/-- Whether the next character is escaped. -/
def escapes (cur : Cursor) : Bool := cur.previous == some escapeMark

/-- Takes a character for what it means, which is a slot, and goes on behind the given one. -/
def write (cur : Cursor) (c : Char) (previous : Option Char) :
    Except PatternFault (Option Slot × Cursor) :=
  (cur.context.slot cur.previous c).map fun s => (some s, { cur with previous := previous })

/-- Reads a character: the slot that it writes, if it writes one, and where the scan stands behind
it. An escaped escape mark is forgotten, since it must not escape what follows it. -/
def step (cur : Cursor) (c : Char) : Except PatternFault (Option Slot × Cursor) :=
  if cur.escapes then cur.write c (if c = escapeMark then none else some c)
  else
    match Context.ofBracket? c with
    | some context => .ok (none, ⟨context, some c⟩)
    | none =>
      if c = escapeMark then .ok (none, { cur with previous := some c })
      else cur.write c (some c)

end Cursor

/-- Where a scan has stopped: at an ellipsis, or behind the last character. -/
inductive ScanStop where
  | ellipsis (slot : Slot)
  | finished (cur : Cursor)
  deriving DecidableEq, Repr

/-- The slot that closes the chain. -/
def ScanStop.slot : ScanStop → Slot
  | .ellipsis s => s
  | .finished _ => .endOfLine

/-- The slots that a scan has found, but for the one at which it has stopped. -/
structure Scanned where
  slots : List Slot
  stop : ScanStop
  deriving DecidableEq, Repr

namespace Scanned

/-- What has been found behind a slot, and the slot. -/
def push (s : Slot) (r : Scanned) : Scanned := { r with slots := s :: r.slots }

/-- The slots as a chain, which the slot closes at which the scan has stopped. -/
def chain (r : Scanned) : Chain := r.slots ++ [r.stop.slot]

end Scanned

/-- Scans a list with the given step. An elliptical slot ends the scan, whatever follows it. -/
def scanWith {α : Type} (step : Cursor → α → Except PatternFault (Option Slot × Cursor))
    (cur : Cursor) : List α → Except PatternFault Scanned
  | [] => .ok ⟨[], .finished cur⟩
  | a :: rest => do
    match ← step cur a with
    | (none, next) => scanWith step next rest
    | (some s, next) =>
      if s.elliptical then return ⟨[], .ellipsis s⟩
      else return (← scanWith step next rest).push s

namespace Chain

/-- Scans characters from a cursor on. -/
def scan (cur : Cursor) (p : Text) : Except PatternFault Scanned := scanWith Cursor.step cur p

/-- The chain of a pattern as it stands. -/
def read (pattern : Text) : Except FormatError Chain :=
  ((scan .start pattern).map Scanned.chain).mapError fun fault => ⟨pattern, fault⟩

/-- The chain of a format: its normal form is read, and errors tell the format as it was given. -/
def compile (format : Text) : Except FormatError Chain := do
  let normal ← normalize format
  ((scan .start normal).map Scanned.chain).mapError fun fault => ⟨format, fault⟩

end Chain

end TextMask
