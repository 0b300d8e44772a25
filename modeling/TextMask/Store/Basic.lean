import TextMask.Store.Log

/-!
# Stores of masks

A store keeps one compiled mask for every format that was asked for and compiles. Masks that come
out of stores carry a serial number, so that it can be told whether two of them are the same;
numbers are handed out in the order of compilation by whoever uses the stores.

Main definitions:

* `Store.get`: the mask of a format, compiled on first use;
* `Store.pick`: the candidate format that a text fits best, the earliest of several.
-/

namespace TextMask

/-- The number of a compiled mask. -/
abbrev Serial := Nat

/-- A mask that was compiled for a store. -/
structure StoredMask where
  serial : Serial
  mask : Mask
  deriving DecidableEq, Repr

/-- Compiled masks that score with the same weights, the oldest first. -/
structure Store where
  weights : Weights
  masks : List StoredMask
  deriving DecidableEq, Repr

/-- What a request leaves behind: its answer, the store, the next free serial number and the events
that were logged. -/
structure Served (α : Type) where
  answer : α
  store : Store
  next : Serial
  log : List LogEvent

/-- Why a request for formatted text fails. -/
inductive StoreError where
  | format (error : FormatError)
  | run (error : RunError)
  deriving DecidableEq, Repr

/-- The mask that was picked for a text and what it makes of the text. -/
structure Picked where
  stored : StoredMask
  result : Result
  deriving DecidableEq, Repr

/-- The first of two results unless the second one scores higher. -/
def Picked.best (a b : Picked) : Picked :=
  if a.result.affinity < b.result.affinity then b else a

namespace Store

/-- A store without masks. -/
def empty (weights : Weights) : Store := ⟨weights, []⟩

/-- The number of masks in the store. -/
def size (s : Store) : Nat := s.masks.length

/-- The mask that the store holds for a format. -/
def find? (s : Store) (format : Text) : Option StoredMask :=
  s.masks.find? (·.mask.format == format)

/-- Whether the store holds a mask for a format. -/
def contains (s : Store) (format : Text) : Bool := (s.find? format).isSome

/-- The store without its masks. -/
def clear (s : Store) : Store := { s with masks := [] }

/-- The mask of a format. It is compiled and kept, under the given serial number, if the store does
not hold it yet. A malformed format leaves the store as it was. -/
def get (s : Store) (next : Serial) (format : Text) : Served (Except FormatError StoredMask) :=
  match s.find? format with
  | some stored => ⟨.ok stored, s, next, []⟩
  | none =>
    match Mask.compile format s.weights with
    | .ok mask =>
      let stored : StoredMask := ⟨next, mask⟩
      ⟨.ok stored, { s with masks := s.masks ++ [stored] }, next + 1, [.ofMask mask]⟩
    | .error error => ⟨.error error, s, next, [.formatError error]⟩

/-- Gets the mask of a format and applies it. -/
def format (s : Store) (next : Serial) (format : Text) (t : CaretText) (autocomplete : Bool) :
    Served (Except StoreError Picked) :=
  let got := s.get next format
  let answer := do
    let stored ← got.answer.mapError .format
    let result ← (stored.mask.apply t autocomplete).mapError .run
    return ⟨stored, result⟩
  { got with answer }

/-- Tries the candidates in order after the best one so far. It stops at the first candidate that
fails. -/
def pickAfter (s : Store) (next : Serial) (t : CaretText) (autocomplete : Bool) (best : Picked) :
    List Text → Served (Except StoreError Picked)
  | [] => ⟨.ok best, s, next, []⟩
  | candidate :: rest =>
    let tried := s.format next candidate t autocomplete
    match tried.answer with
    | .error _ => tried
    | .ok picked =>
      let later := tried.store.pickAfter tried.next t autocomplete (best.best picked) rest
      { later with log := tried.log ++ later.log }

/-- The candidate whose mask gives the text the highest affinity. -/
def pick (s : Store) (next : Serial) (t : CaretText) (autocomplete : Bool) (primary : Text)
    (affine : List Text) : Served (Except StoreError Picked) :=
  let tried := s.format next primary t autocomplete
  match tried.answer with
  | .error _ => tried
  | .ok picked =>
    let later := tried.store.pickAfter tried.next t autocomplete picked affine
    { later with log := tried.log ++ later.log }

end Store

end TextMask
