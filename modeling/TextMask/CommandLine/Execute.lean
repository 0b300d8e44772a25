import TextMask.CommandLine.Arguments
import TextMask.CommandLine.Report
import TextMask.Policy.Load

/-!
# Execution of commands

`execute` carries out a command line: the answer is an exit code and the text that is printed. Of
several errors the first one in this order is reported: arguments, kind of report, policy, caret,
format.
-/

namespace TextMask.CommandLine

/-- What a command ends with. -/
structure Outcome where
  exitCode : UInt8
  output : String
  deriving DecidableEq, Repr

/-- Why a command fails. -/
inductive Failure where
  | usage (error : UsageError)
  | report
  | policy (path : String) (error : PolicyError)
  | unreadable
  | caret (error : CaretError)
  | format (error : FormatError)
  | run (error : RunError)
  | slot (error : SlotError)
  deriving DecidableEq, Repr

/-- What a failed command ends with. -/
def Failure.outcome : Failure → Outcome
  | .usage _ => ⟨2, ""⟩
  | .report => ⟨1, printed "ERROR: --report must be one of: human, json."⟩
  | .policy path e =>
    match e.message? path with
    | some message => ⟨1, printed s!"ERROR: {message}"⟩
    | none => ⟨1, ""⟩
  | .unreadable => ⟨1, ""⟩
  | .caret e => ⟨1, printed s!"ERROR: {e.message}"⟩
  | .format e => ⟨2, printed s!"ERROR: malformed mask format: {e.message}"⟩
  | .run e => ⟨1, printed s!"ERROR: {e.message}"⟩
  | .slot e => ⟨1, printed s!"ERROR: {e.message}"⟩

/-- What stands at a path: a file, present or not, or something that cannot be read. -/
abbrev Files := String → Option PolicyFile

/-- A path without empty parts and without parts that stay where they are. Two slashes at the start
are a root of their own; one slash and more than two are the common root. -/
def tidyPath (path : String) : String :=
  let parts := (path.splitOn "/").filter fun part => part != "" && part != "."
  let root :=
    if path.startsWith "//" && !path.startsWith "///" then "//"
    else if path.startsWith "/" then "/"
    else ""
  if parts.isEmpty && root == "" then "." else root ++ "/".intercalate parts

/-- The kind of report that is asked for. -/
def reportMode (name : Text) : Except Failure ReportMode :=
  match ReportMode.ofName? name with
  | some mode => .ok mode
  | none => .error .report

/-- The policy that a command works with. -/
def policyOf (files : Files) : Option String → Except Failure Policy
  | none => .ok .standard
  | some path =>
    match files (tidyPath path) with
    | none => .error .unreadable
    | some file => (Policy.load file).mapError (.policy (tidyPath path))

/-- Formats a text. -/
def apply (files : Files) (o : ApplyOptions) : Except Failure String := do
  let mode ← reportMode o.report
  let policy ← policyOf files o.policy
  let t ← (CaretText.placeOrEnd o.text o.caret).mapError .caret
  let m ← (Mask.compile o.format policy.weights).mapError .format
  let r ← (m.apply t (o.autocomplete.getD policy.autocomplete)).mapError .run
  return mode.result m r

/-- Describes a mask. -/
def describe (o : DescribeOptions) : Except Failure String := do
  let mode ← reportMode o.report
  let m ← (Mask.compile o.format Policy.standard.weights).mapError .format
  let description ← m.chain.description.mapError .slot
  return mode.description m description

/-- What a command ends with, given its report or its failure. -/
def Outcome.ofAnswer : Except Failure String → Outcome
  | .ok report => ⟨0, printed report⟩
  | .error failure => failure.outcome

/-- Carries out a command. -/
def Command.answer (files : Files) : Command → Except Failure String
  | .apply o => CommandLine.apply files o
  | .describe o => CommandLine.describe o

/-- Carries out a command line. -/
def execute (files : Files) (arguments : List String) : Outcome :=
  .ofAnswer do (← (readCommand arguments).mapError .usage).answer files

end TextMask.CommandLine
