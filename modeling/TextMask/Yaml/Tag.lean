import TextMask.Text.Basic

/-!
# Tags

A tag tells the kind of a node. `Tag.ofName` reads the full name of a tag.
-/

namespace TextMask.Yaml

/-- The kinds of nodes that a stream can ask for. A `merge` key adds the fields of other mappings to
its own, and a `value` key holds the scalar that a mapping stands for. -/
inductive Tag where
  | null
  | bool
  | int
  | float
  | timestamp
  | merge
  | value
  | binary
  | str
  | seq
  | map
  | set
  | pairs
  | unknown
  deriving DecidableEq, Repr

namespace Tag

/-- The common beginning of the full names of tags. -/
def namespaceText : Text := "tag:yaml.org,2002:".toList

/-- The kind that a tag asks for by its full name. -/
def ofName (t : Text) : Tag :=
  if t.take namespaceText.length == namespaceText then
    match String.ofList (t.drop namespaceText.length) with
    | "null" => .null
    | "bool" => .bool
    | "int" => .int
    | "float" => .float
    | "timestamp" => .timestamp
    | "merge" => .merge
    | "value" => .value
    | "binary" => .binary
    | "str" => .str
    | "seq" => .seq
    | "map" => .map
    | "set" => .set
    | "omap" | "pairs" => .pairs
    | _ => .unknown
  else .unknown

/-- Whether nodes of the kind hold other nodes, so that they cannot be the name of a field. -/
def isCollection : Tag → Bool
  | .seq | .map | .set | .pairs => true
  | _ => false

end Tag

end TextMask.Yaml
