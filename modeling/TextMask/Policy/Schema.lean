import TextMask.Policy.Basic
import TextMask.Policy.Datum
import TextMask.Text.Number
import TextMask.Text.Utf8

/-!
# Policies as data

`Policy.ofDatum` reads a policy from data and names every field that it cannot read. Integers may
also be given as truth values, as floating point numbers without a fraction and as texts; truth
values also as the numbers zero and one and as words. Bytes count as the text that they encode.

Main definitions:

* `Datum.toInteger?`, `Datum.toFlag?`: the readings of single values;
* `Weights.ofDatum`, `Policy.ofDatum`: the readings of records, with the paths of all fields that
  are unknown or cannot be read.
-/

namespace TextMask

namespace IntegerText

/-! ### Integers in texts -/

/-- The text without the zeros in front, which underscores may part. In front of a point the last
character before it is left, and where nothing else follows, the last character. A minus sign may
stand behind the zeros, or without any at the start. -/
def dropZeros : Text → Option Text
  | '0' :: rest =>
    let zeros := rest.takeWhile fun c => c == '0' || c == '_'
    let last := (zeros.getLast?).getD '0'
    match rest.drop zeros.length with
    | [] => some [last]
    | '.' :: behind => some (last :: '.' :: behind)
    | c :: behind => if c.isDigit || c == '-' then some (c :: behind) else none
  | c :: rest => if c.isDigit || c == '-' then some (c :: rest) else none
  | [] => none

/-- The text without a fraction that consists of zeros. -/
def dropFraction (t : Text) : Text :=
  let fraction := (t.dropWhile (· != '.')).drop 1
  if !fraction.isEmpty && fraction.all (· == '0') then t.takeWhile (· != '.') else t

/-- The text without underscores, if each of them stands alone between other characters. -/
def dropMarks (t : Text) : Text :=
  let isMark := fun (c : Char) => c == '_'
  let isDoubled := (t.zip t.tail).any fun pair => isMark pair.1 && isMark pair.2
  if (t.head?).any isMark || (t.getLast?).any isMark || isDoubled then t
  else t.filter fun c => !isMark c

/-- The bare form of an integer without its first sign. -/
def bare? (t : Text) : Option Text := (dropZeros t).map fun t => dropMarks (dropFraction t)

/-- The number that a bare form writes: digits of which the first is no zero unless it is the only
one. -/
def natural? (t : Text) : Option Nat :=
  let isBare := !t.isEmpty && t.all Char.isDigit && (t == ['0'] || t.head? != some '0')
  if isBare then some (Number.ofDigits 10 t) else none

/-- The integer that a bare form with its sign writes. It may not be longer than the longest
integer; the sign counts. -/
def integer? (t : Text) : Option Int :=
  if Number.longest < t.length then none
  else
    match t with
    | '-' :: rest => (natural? rest).map fun n => -(n : Int)
    | t => (natural? t).map fun n => (n : Int)

/-- A text as an integer. White space around it, a sign, zeros in front, single underscores between
digits and a fraction of zeros are allowed. A minus sign may also follow zeros. -/
def read? (t : Text) : Option Int :=
  match Text.trim isWhiteSpace t with
  | '-' :: rest => (bare? rest).bind fun bare => integer? ('-' :: bare)
  | '+' :: rest => if rest.head? == some '-' then none else (bare? rest).bind integer?
  | rest => (bare? rest).bind integer?

end IntegerText

/-- The integer that a floating point number is, if it has no fraction and fits into 64 bits. -/
def integerOfReal? (x : Float) : Option Int :=
  let bound : Float := 9223372036854775808.0
  if x.floor == x && -bound < x && x < bound then some x.toInt64.toInt else none

namespace Datum

/-- The integer that the datum can be read as. -/
def toInteger? : Datum → Option Int
  | .integer n => some n
  | .flag b => some (if b then 1 else 0)
  | .real x => integerOfReal? x
  | .text t => IntegerText.read? t
  | .bytes content => (Utf8.decode content).toOption.bind IntegerText.read?
  | .null | .record _ | .foreign => none

/-- The words for yes. -/
def yesWords : List String := ["1", "on", "t", "true", "y", "yes"]

/-- The words for no. -/
def noWords : List String := ["0", "off", "f", "false", "n", "no"]

/-- The truth value of a word, in any mixture of large and small letters. -/
def flagOfWord? (t : Text) : Option Bool :=
  let word := String.ofList (t.map Char.toLower)
  if yesWords.contains word then some true
  else if noWords.contains word then some false
  else none

/-- The truth value of a number. -/
def flagOfInteger? (n : Int) : Option Bool :=
  if n = 0 then some false else if n = 1 then some true else none

/-- The truth value that the datum can be read as. -/
def toFlag? : Datum → Option Bool
  | .flag b => some b
  | .integer n => flagOfInteger? n
  | .real x => (integerOfReal? x).bind flagOfInteger?
  | .text t => flagOfWord? t
  | .bytes content => (Utf8.decode content).toOption.bind flagOfWord?
  | .null | .record _ | .foreign => none

end Datum

/-- The way to a field: the names of the records that lead to it and its own name. -/
abbrev FieldPath := List Text

/-- The path with its names joined by points. -/
def FieldPath.text (path : FieldPath) : String :=
  String.ofList (List.intercalate ['.'] path)

namespace Datum

/-- Reads a field of a record, or keeps the default if the record lacks it. -/
def readField {α : Type} (fields : List (Datum × Datum)) (name : String) (default : α)
    (read : Datum → Except (List FieldPath) α) : Except (List FieldPath) α :=
  match field? name.toList fields with
  | none => .ok default
  | some d => (read d).mapError fun paths => paths.map (name.toList :: ·)

/-- The reading of a single value, as a field with an empty path. -/
def readLeaf {α : Type} (read? : Datum → Option α) (d : Datum) : Except (List FieldPath) α :=
  match read? d with
  | some a => .ok a
  | none => .error [[]]

/-- The fields of a record whose names are not among the known ones. -/
def unknownFields (known : List String) (fields : List (Datum × Datum)) : List FieldPath :=
  fields.filterMap fun f =>
    match f.1.asText? with
    | some name => if known.contains (String.ofList name) then none else some [name]
    | none => some [[]]

/-- The paths of a failed reading. -/
def faults {α : Type} : Except (List FieldPath) α → List FieldPath
  | .ok _ => []
  | .error paths => paths

end Datum

/-- Reads weights from data. -/
def Weights.ofDatum : Datum → Except (List FieldPath) Weights
  | .record fields =>
    let standard : Weights := {}
    let integer := Datum.readLeaf Datum.toInteger?
    let consumed := Datum.readField fields "consumed" standard.consumed integer
    let notConsumed := Datum.readField fields "not_consumed" standard.notConsumed integer
    let dropped := Datum.readField fields "dropped" standard.dropped integer
    let unknown := Datum.unknownFields ["consumed", "not_consumed", "dropped"] fields
    match consumed, notConsumed, dropped, unknown with
    | .ok consumed, .ok notConsumed, .ok dropped, [] => .ok ⟨consumed, notConsumed, dropped⟩
    | _, _, _, _ =>
      .error (Datum.faults consumed ++ Datum.faults notConsumed ++ Datum.faults dropped ++ unknown)
  | _ => .error [[]]

/-- Reads a policy from data. -/
def Policy.ofDatum : Datum → Except (List FieldPath) Policy
  | .record fields =>
    let standard : Policy := {}
    let weights := Datum.readField fields "affinity" standard.weights Weights.ofDatum
    let autocomplete := Datum.readField fields "autocomplete" standard.autocomplete
      (Datum.readLeaf Datum.toFlag?)
    let unknown := Datum.unknownFields ["affinity", "autocomplete"] fields
    match weights, autocomplete, unknown with
    | .ok weights, .ok autocomplete, [] => .ok ⟨weights, autocomplete⟩
    | _, _, _ => .error (Datum.faults weights ++ Datum.faults autocomplete ++ unknown)
  | _ => .error [[]]

/-- The texts of the paths in increasing order, each once. -/
def reportPaths (paths : List FieldPath) : List String :=
  (paths.map FieldPath.text).eraseDups.mergeSort fun a b => !(b < a)

end TextMask
