import TextMask.Mask.Basic
import TextMask.Text.Blank
import TextMask.Text.Json

/-!
# Reports

What the command line prints about a mask and about a text that was formatted: a block of lines
with one `key=value` each, or an object in JSON. Control sequences that would colour a terminal are
left out of the output.
-/

namespace TextMask.CommandLine

/-- The kinds of reports. -/
inductive ReportMode where
  | human
  | json
  deriving DecidableEq, Repr

/-- The kind of report with a name, in large or small letters and with blanks around it. -/
def ReportMode.ofName? (name : Text) : Option ReportMode :=
  match String.ofList (Text.trim isBlank (name.map Char.toLower)) with
  | "human" => some .human
  | "json" => some .json
  | _ => none

/-- A length range. -/
def range (least greatest : Nat) : String := s!"{least}..{greatest}"

/-- A block of lines about a formatted text. -/
def humanResult (m : Mask) (r : Result) : String :=
  "\n".intercalate
    ["mask_result:",
      s!"format={String.ofList m.format}",
      s!"formatted={String.ofList r.formatted.chars}",
      s!"caret={r.formatted.caret}",
      s!"caret_view={String.ofList r.formatted.view}",
      s!"extracted={String.ofList r.extracted}",
      s!"affinity={r.affinity}",
      "complete=" ++ if r.complete then "yes" else "no"]

/-- An object about a formatted text. -/
def jsonResult (m : Mask) (r : Result) : String :=
  Json.indented
    [("format", .text m.format),
      ("formatted_text", .text r.formatted.chars),
      ("caret_position", .number r.formatted.caret),
      ("extracted_value", .text r.extracted),
      ("affinity", .number r.affinity),
      ("complete", .flag r.complete)]

/-- A block of lines about a mask. -/
def humanDescription (m : Mask) (description : Text) : String :=
  let c := m.chain
  "\n".intercalate
    ["mask_description:",
      s!"format={String.ofList m.format}",
      s!"placeholder={String.ofList c.placeholder}",
      "text_length=" ++ range c.minTextLength c.maxTextLength,
      "value_length=" ++ range c.minValueLength c.maxValueLength,
      s!"chain: {String.ofList description}"]

/-- An object about a mask. -/
def jsonDescription (m : Mask) (description : Text) : String :=
  let c := m.chain
  Json.indented
    [("format", .text m.format),
      ("placeholder", .text c.placeholder),
      ("min_text_length", .number c.minTextLength),
      ("max_text_length", .number c.maxTextLength),
      ("min_value_length", .number c.minValueLength),
      ("max_value_length", .number c.maxValueLength),
      ("chain", .text description)]

/-- The report about a formatted text. -/
def ReportMode.result (mode : ReportMode) (m : Mask) (r : Result) : String :=
  match mode with
  | .human => humanResult m r
  | .json => jsonResult m r

/-- The report about a mask. -/
def ReportMode.description (mode : ReportMode) (m : Mask) (description : Text) : String :=
  match mode with
  | .human => humanDescription m description
  | .json => jsonDescription m description

/-- The rest of a text behind a control sequence, of which the escape character and the opening
bracket have been read. -/
def behindControl? (t : Text) : Option Text :=
  match t.dropWhile fun c => c.isDigit || c == ';' || c == '?' with
  | [] => none
  | c :: rest => if c.isAlpha then some rest else none

/-- The text without control sequences of terminals. The number bounds the steps; the length of the
text is enough. -/
def dropControls : Nat → Text → Text
  | 0, t => t
  | _ + 1, [] => []
  | fuel + 1, '\x1b' :: '[' :: rest =>
    match behindControl? rest with
    | some rest => dropControls fuel rest
    | none => '\x1b' :: dropControls fuel ('[' :: rest)
  | fuel + 1, c :: rest => c :: dropControls fuel rest

/-- A printed line. -/
def printed (s : String) : String :=
  String.ofList (dropControls (s.toList.length) s.toList) ++ "\n"

end TextMask.CommandLine
