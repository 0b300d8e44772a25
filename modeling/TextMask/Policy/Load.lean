import TextMask.Policy.Schema
import TextMask.Text.Utf8
import TextMask.Yaml.Data

/-!
# Policy files

A policy is kept in a YAML file. `Policy.load` reads one; an empty document stands for the standard
policy.
-/

namespace TextMask

/-- A file that may not be there. -/
inductive PolicyFile where
  | missing
  | bytes (content : List UInt8)
  deriving DecidableEq, Repr

/-- Why a policy file cannot be used. -/
inductive PolicyError where
  | notFound
  | badEncoding (fault : Utf8.Fault)
  | badYaml
  | badValue (fault : Yaml.ValueFault)
  | breakdown (b : Yaml.Breakdown)
  | noMapping
  | badSchema
  deriving DecidableEq, Repr

/-- The error as it is reported for the file at a path. Some errors have no report. -/
def PolicyError.message? (path : String) : PolicyError → Option String
  | .notFound => some s!"Policy file not found: {path}"
  | .badEncoding fault => some fault.message
  | .badYaml => some s!"Invalid YAML in policy file: {path}"
  | .badValue fault => some fault.message
  | .breakdown _ => none
  | .noMapping => some s!"Policy file must contain a mapping: {path}"
  | .badSchema => some s!"Invalid policy schema: {path}"

/-- The error that a fault of the YAML stream amounts to. -/
def PolicyError.ofFault : Yaml.Fault → PolicyError
  | .value fault => .badValue fault
  | .breakdown b => .breakdown b
  | _ => .badYaml

/-- The text with a line feed for every line end. -/
def unifyLineEnds : Text → Text
  | [] => []
  | '\r' :: '\n' :: rest => '\n' :: unifyLineEnds rest
  | '\r' :: rest => '\n' :: unifyLineEnds rest
  | c :: rest => c :: unifyLineEnds rest

namespace Policy

/-- The policy in a document. -/
def ofDocument : Datum → Except PolicyError Policy
  | .null => .ok .standard
  | .record fields => (Policy.ofDatum (.record fields)).mapError fun _ => .badSchema
  | _ => .error .noMapping

/-- Reads a policy file. -/
def load : PolicyFile → Except PolicyError Policy
  | .missing => .error .notFound
  | .bytes content => do
    let text ← (Utf8.decode content).mapError .badEncoding
    let document ← (Yaml.document (unifyLineEnds text)).mapError .ofFault
    ofDocument document

end Policy

end TextMask
