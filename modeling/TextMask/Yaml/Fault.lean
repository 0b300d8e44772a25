import TextMask.Text.Number
import TextMask.Yaml.Timestamp

/-!
# Faults of YAML streams

What can be wrong with a YAML stream. Most faults are alike to a reader of the report: the stream is
invalid. Two kinds are told apart: a `ValueFault` is reported in its own words, and a `Breakdown`
ends the reading without any report.
-/

namespace TextMask.Yaml

/-- What can be wrong with a single value or character: it is spelled like one, but there is none. -/
inductive ValueFault where
  | number (fault : NumberFault)
  | date (fault : DateFault)
  | codePoint
  deriving DecidableEq, Repr

/-- The report of a fault. -/
def ValueFault.message : ValueFault → String
  | .number fault => fault.message
  | .date fault => fault.message
  | .codePoint => "chr() arg not in range(0x110000)"

/-- What ends the reading without a report: a word for a truth value that is none, a number without
digits, a text for a timestamp that is none, a collection in place of a timestamp, a value that is
its own value, a code point beyond 32 bits with sign, and a place in base sixty beyond all floating
point numbers. -/
inductive Breakdown where
  | unknownWord (word : Text)
  | emptyNumber
  | noTimestamp
  | timestampCollection
  | ownValue
  | wideCodePoint
  | widePlace
  deriving DecidableEq, Repr

/-- What can be wrong with a YAML stream. -/
inductive Fault where
  | unprintable (c : Char)
  | noToken (c : Char)
  | badDirective
  | badAnchor
  | badTag
  | badEscape
  | unclosedQuote
  | badBlockHeader
  | missingColon
  | misplacedEntry
  | misplacedKey
  | misplacedValue
  | unexpectedToken
  | incompatibleVersion
  | repeatedDirective
  | undefinedHandle
  | undefinedAlias
  | repeatedAnchor
  | secondDocument
  | badMerge
  | badKey
  | badContent
  | badBytes
  | unknownTag
  | outOfDepth
  | value (fault : ValueFault)
  | breakdown (b : Breakdown)
  deriving DecidableEq, Repr

end TextMask.Yaml
