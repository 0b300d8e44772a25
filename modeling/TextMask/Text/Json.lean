import TextMask.Text.Basic

/-!
# Flat JSON objects

Writes objects whose values are texts, integers and truth values, either compactly on one line or
with one field per line. Control characters, the double quote and the backslash are escaped; every
other character stands for itself.
-/

namespace TextMask.Json

/-- The values that a flat object holds. -/
inductive Value where
  | text (t : Text)
  | number (n : Int)
  | flag (b : Bool)
  deriving DecidableEq, Repr

/-- A flat object: its fields in the order in which they are written. -/
abbrev Object := List (String × Value)

/-- A character inside a JSON string. -/
def encodeChar (c : Char) : Text :=
  if c = '"' ∨ c = '\\' then ['\\', c]
  else if c = '\n' then ['\\', 'n']
  else if c = '\r' then ['\\', 'r']
  else if c = '\t' then ['\\', 't']
  else if c.toNat = 0x08 then ['\\', 'b']
  else if c.toNat = 0x0C then ['\\', 'f']
  else if c.toNat < 0x20 then
    ['\\', 'u', '0', '0', Nat.digitChar (c.toNat / 16), Nat.digitChar (c.toNat % 16)]
  else [c]

/-- A JSON string. -/
def encodeText (t : Text) : Text := '"' :: t.flatMap encodeChar ++ ['"']

/-- A JSON value. -/
def Value.encode : Value → Text
  | .text t => encodeText t
  | .number n => (toString n).toList
  | .flag b => (if b then "true" else "false").toList

/-- The fields of an object, each after its key and the given mark between key and value. -/
def fields (colon : String) (object : Object) : List String :=
  object.map fun (key, value) =>
    String.ofList (encodeText key.toList) ++ colon ++ String.ofList value.encode

/-- An object on one line without spaces. -/
def compact (object : Object) : String :=
  "\x7b" ++ String.intercalate "," (fields ":" object) ++ "\x7d"

/-- An object with one field per line, indented by two spaces. -/
def indented (object : Object) : String :=
  "\x7b\n  " ++ String.intercalate ",\n  " (fields ": " object) ++ "\n\x7d"

end TextMask.Json
