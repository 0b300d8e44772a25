import TextMask.Policy.Datum
import TextMask.Text.Base64
import TextMask.Text.Lower
import TextMask.Yaml.Fault
import TextMask.Yaml.Plain

/-!
# Values of scalars

What the text of a scalar stands for, given its kind. A kind may be asked for by a tag, so the text
need not be spelled as the kind demands: a number may have blanks around it or a second sign, and
what is no number at all is a fault.
-/

namespace TextMask.Yaml.Value

/-- The text without underscores. -/
def withoutMarks (t : Text) : Text := t.filter (· != '_')

/-- An answer of a reader of numbers. -/
def ofNumber {α : Type} (answer : Except NumberFault α) : Except Fault α :=
  answer.mapError fun fault => .value (.number fault)

/-! ### Integers -/

/-- The size of an integer without the sign in front: a zero begins a number in base two, sixteen or
eight, and colons part the places of a number in base sixty. -/
def integerSize (t : Text) : Except Fault Int :=
  match t with
  | [] => .error (.breakdown .emptyNumber)
  | ['0'] => .ok 0
  | '0' :: 'b' :: rest => ofNumber (Number.readInteger 2 rest)
  | '0' :: 'x' :: rest => ofNumber (Number.readInteger 16 rest)
  | '0' :: _ => ofNumber (Number.readInteger 8 t)
  | _ =>
    (Plain.colonPieces t).foldlM
      (fun size piece => do return size * 60 + (← ofNumber (Number.readInteger 10 piece))) 0

/-- The value of an integer. -/
def integer (t : Text) : Except Fault Int := do
  let written := withoutMarks t
  let size ← integerSize (Number.dropSign written)
  return if Number.isNegative written then -size else size

/-! ### Floating point numbers -/

/-- The last place in base sixty whose weight is within the range of floating point numbers. -/
def lastPlace : Nat := 173

/-- The weight of a place in base sixty. -/
def placeWeight (place : Nat) : Except Fault Float :=
  if lastPlace < place then .error (.breakdown .widePlace)
  else .ok (realOfDecimal false (Nat.pow 60 place) 0)

/-- The number with the given places in base sixty, of which the last counts once. The sum begins
with the last place. -/
def ofPlaces (places : List Float) : Except Fault Float :=
  places.reverse.zipIdx.foldlM
    (fun sum (digit, place) => do return sum + digit * (← placeWeight place)) 0.0

/-- The size of a floating point number without the sign in front. -/
def realSize (t : Text) : Except Fault Float :=
  match t with
  | ['.', 'i', 'n', 'f'] => .ok (1.0 / 0.0)
  | ['.', 'n', 'a', 'n'] => .ok (0.0 / 0.0)
  | _ => do ofPlaces (← (Plain.colonPieces t).mapM fun piece => ofNumber (Number.readReal piece))

/-- The value of a floating point number. -/
def real (t : Text) : Except Fault Float := do
  let written := Text.toLower (withoutMarks t)
  if written.isEmpty then throw (.breakdown .emptyNumber)
  let size ← realSize (Number.dropSign written)
  return if Number.isNegative written then -size else size

/-! ### Other kinds -/

/-- The truth value of a word, in large or small letters. -/
def truth (t : Text) : Except Fault Bool :=
  let word := Text.toLower t
  match String.ofList word with
  | "yes" | "true" | "on" => .ok true
  | "no" | "false" | "off" => .ok false
  | _ => .error (.breakdown (.unknownWord word))

/-- The bytes that a text writes in base 64. -/
def bytes (t : Text) : Except Fault (List UInt8) :=
  if t.all fun c => c.toNat < 0x80 then
    match Base64.decode t with
    | some content => .ok content
    | none => .error .badBytes
  else .error .badBytes

/-- Checks that a text is a timestamp of the calendar. -/
def timestamp (t : Text) : Except Fault Unit :=
  match Timestamp.read? (Plain.line t) with
  | none => .error (.breakdown .noTimestamp)
  | some s => s.check.mapError fun fault => .value (.date fault)

/-- What a text of a kind stands for. Some kinds have no values. -/
def ofText (t : Text) : Tag → Except Fault Datum
  | .null => .ok .null
  | .bool => .flag <$> truth t
  | .int => .integer <$> integer t
  | .float => .real <$> real t
  | .str => .ok (.text t)
  | .binary => .bytes <$> bytes t
  | .timestamp => (fun _ => .foreign) <$> timestamp t
  | .seq | .map | .set | .pairs => .ok .foreign
  | .merge | .value | .unknown => .error .unknownTag

end TextMask.Yaml.Value
