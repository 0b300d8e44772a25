import TextMask.Mask.Basic
import TextMask.Text.Json

/-!
# Log of a store

The events that a store of masks reports, each with its level and its line.
-/

namespace TextMask

/-- What a store of masks reports. -/
inductive LogEvent where
  /-- A format was compiled for the first time. -/
  | compiled (format : Text) (maxTextLength maxValueLength : Nat)
  /-- A format was asked for and is malformed. -/
  | formatError (error : FormatError)
  deriving DecidableEq, Repr

namespace LogEvent

/-- The event of a newly compiled mask. -/
def ofMask (m : Mask) : LogEvent :=
  .compiled m.format m.chain.maxTextLength m.chain.maxValueLength

/-- How severe the event is. -/
def level : LogEvent → String
  | .compiled .. => "DEBUG"
  | .formatError _ => "WARNING"

/-- The line of the event. -/
def line : LogEvent → String
  | .compiled format maxText maxValue =>
    Json.compact
      [("event", .text "compiled".toList), ("format", .text format),
        ("max_text_length", .number maxText), ("max_value_length", .number maxValue)]
  | .formatError error =>
    Json.compact
      [("event", .text "format_error".toList), ("format", .text error.pattern),
        ("reason", .text error.message.toList)]

end LogEvent

end TextMask
