import TextMask.Text.Basic

/-!
# Policy data

A policy is written as a tree of data: truth values, numbers, texts, bytes and records. `Datum` is
that tree, whatever notation it was read from.
-/

namespace TextMask

/-- A piece of data. A field of a record may have any name, and a repeated name counts where it
comes last. -/
inductive Datum where
  | null
  | flag (b : Bool)
  | integer (n : Int)
  | real (x : Float)
  | text (t : Text)
  | bytes (content : List UInt8)
  | record (fields : List (Datum × Datum))
  /-- Data of a kind that no policy uses: a list, a set or a date. -/
  | foreign
  deriving Inhabited

namespace Datum

/-- The text that the datum is, if it is one. -/
def asText? : Datum → Option Text
  | .text t => some t
  | _ => none

/-- The value of the named field of a record. -/
def field? (name : Text) (fields : List (Datum × Datum)) : Option Datum :=
  (fields.reverse.find? fun f => f.1.asText? == some name).map (·.2)

end Datum

end TextMask
