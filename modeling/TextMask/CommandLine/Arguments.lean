import TextMask.Policy.Schema

/-!
# Command line arguments

The command line knows two commands. `apply` formats a text, `describe` describes a mask. Options
may stand in any order; an option takes the next argument as its value, whatever that looks like,
or has its value behind an equals sign, and the last of repeated options counts.
-/

namespace TextMask.CommandLine

/-- The options of the command that formats a text. -/
structure ApplyOptions where
  format : Text
  text : Text
  caret : Option Int
  autocomplete : Option Bool
  policy : Option String
  report : Text
  deriving DecidableEq, Repr

/-- The options of the command that describes a mask. -/
structure DescribeOptions where
  format : Text
  report : Text
  deriving DecidableEq, Repr

/-- A command with its options. -/
inductive Command where
  | apply (options : ApplyOptions)
  | describe (options : DescribeOptions)
  deriving DecidableEq, Repr

/-- Why arguments are no command. -/
inductive UsageError where
  | noCommand
  | unknownCommand (name : String)
  | unknownOption (name : String)
  | missingValue (name : String)
  | unwantedValue (name : String)
  | missingOption (name : String)
  | extraArgument (argument : String)
  | badInteger (argument : String)
  deriving DecidableEq, Repr

/-- The options that a command knows: those with a value, and those that stand alone. -/
structure OptionSet where
  valued : List String
  alone : List String
  deriving DecidableEq, Repr

/-- The options of the command that formats a text. -/
def OptionSet.apply : OptionSet where
  valued := ["--format", "--text", "--caret", "--policy", "--report"]
  alone := ["--autocomplete", "--no-autocomplete"]

/-- The options of the command that describes a mask. -/
def OptionSet.describe : OptionSet where
  valued := ["--format", "--report"]
  alone := []

/-- Options as they were given, the last one first. -/
abbrev Given := List (String × Option String)

/-- An argument taken apart at its first equals sign. -/
def splitArgument (argument : String) : String × Option String :=
  let name := argument.toList.takeWhile (· != '=')
  match argument.toList.dropWhile (· != '=') with
  | [] => (argument, none)
  | _ :: value => (String.ofList name, some (String.ofList value))

/-- Reads options. Two dashes end them, and nothing else may stand between or behind them. -/
def readOptions (known : OptionSet) (given : Given) : List String → Except UsageError Given
  | [] => .ok given
  | "--" :: [] => .ok given
  | "--" :: extra :: _ => .error (.extraArgument extra)
  | argument :: rest =>
    if argument.startsWith "-" && argument != "-" then
      let (name, value) := splitArgument argument
      if known.valued.contains name then
        match value, rest with
        | some value, rest => readOptions known ((name, some value) :: given) rest
        | none, value :: rest => readOptions known ((name, some value) :: given) rest
        | none, [] => .error (.missingValue name)
      else if known.alone.contains name then
        match value with
        | none => readOptions known ((name, none) :: given) rest
        | some _ => .error (.unwantedValue name)
      else .error (.unknownOption name)
    else .error (.extraArgument argument)

/-- The value of an option, if it was given. -/
def value? (given : Given) (name : String) : Option String := (given.lookup name).join

/-- The value of an option that has to be given. -/
def required (given : Given) (name : String) : Except UsageError Text :=
  match value? given name with
  | some value => .ok value.toList
  | none => .error (.missingOption name)

/-- The caret, if it was given. -/
def caret? (given : Given) : Except UsageError (Option Int) :=
  match value? given "--caret" with
  | none => .ok none
  | some value =>
    match IntegerText.read? value.toList with
    | some n => .ok (some n)
    | none => .error (.badInteger value)

/-- The setting of autocompletion, if one was given. -/
def autocomplete? (given : Given) : Option Bool :=
  (given.find? fun g => g.1 == "--autocomplete" || g.1 == "--no-autocomplete").map
    (·.1 == "--autocomplete")

/-- The kind of report that is asked for. -/
def reportOf (given : Given) : Text := ((value? given "--report").getD "human").toList

/-- Reads the options of the command that formats a text. -/
def readApply (arguments : List String) : Except UsageError Command := do
  let given ← readOptions .apply [] arguments
  let format ← required given "--format"
  let text ← required given "--text"
  let caret ← caret? given
  return .apply ⟨format, text, caret, autocomplete? given, value? given "--policy", reportOf given⟩

/-- Reads the options of the command that describes a mask. -/
def readDescribe (arguments : List String) : Except UsageError Command := do
  let given ← readOptions .describe [] arguments
  let format ← required given "--format"
  return .describe ⟨format, reportOf given⟩

/-- Reads a command. Two dashes may stand in front of its name. -/
def readCommand : List String → Except UsageError Command
  | [] | ["--"] => .error .noCommand
  | "--" :: name :: arguments => command name arguments
  | name :: arguments => command name arguments
where
  /-- Reads the options of the named command. -/
  command (name : String) (arguments : List String) : Except UsageError Command :=
    if name == "apply" then readApply arguments
    else if name == "describe" then readDescribe arguments
    else .error (.unknownCommand name)

end TextMask.CommandLine
