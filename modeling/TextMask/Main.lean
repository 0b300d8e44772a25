import TextMask.CommandLine.Execute

/-!
# The program

Reads the policy file that the arguments name, if any, prints the report and ends with its exit
code.
-/

namespace TextMask.Main

open TextMask.CommandLine

/-- What stands at a path. A file that is not there is told from one that cannot be read. -/
def readFile (path : String) : IO (Option PolicyFile) :=
  try
    let content ← IO.FS.readBinFile path
    return some (.bytes content.toList)
  catch e =>
    match e with
    | .noFileOrDirectory .. => return some .missing
    | _ => return none

/-- The path of the policy file that the arguments name. -/
def policyPath (arguments : List String) : Option String :=
  match readCommand arguments with
  | .ok (.apply o) => o.policy.map tidyPath
  | _ => none

end TextMask.Main

/-- Carries out the command line. -/
def main (arguments : List String) : IO UInt32 := do
  let file ← match TextMask.Main.policyPath arguments with
    | none => pure (some .missing)
    | some path => TextMask.Main.readFile path
  let outcome := TextMask.CommandLine.execute (fun _ => file) arguments
  IO.print outcome.output
  return outcome.exitCode.toUInt32
