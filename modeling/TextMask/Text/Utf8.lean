import TextMask.Text.Basic

/-!
# Reading UTF-8

`Utf8.decode` reads a list of bytes as UTF-8 or names the first fault. A lead byte fixes how many
continuation bytes follow and the range of the first of them, which is narrower where a longer
form, a surrogate or a number beyond the last code point would begin. A fault covers the bytes of
the broken sequence that were still possible.
-/

namespace TextMask.Utf8

/-- Why a sequence of bytes is not a character. -/
inductive Cause where
  | invalidStart
  | invalidContinuation
  | unexpectedEnd
  deriving DecidableEq, Repr

/-- How a fault names its cause. -/
def Cause.message : Cause → String
  | .invalidStart => "invalid start byte"
  | .invalidContinuation => "invalid continuation byte"
  | .unexpectedEnd => "unexpected end of data"

/-- The first bytes that are no UTF-8: where they begin, the first of them and how many there
are. -/
structure Fault where
  position : Nat
  lead : UInt8
  length : Nat
  cause : Cause
  deriving DecidableEq, Repr

/-- Two hexadecimal digits of a byte. -/
def hexByte (b : UInt8) : String :=
  String.ofList [Nat.digitChar (b.toNat / 16), Nat.digitChar (b.toNat % 16)]

/-- The report of a fault: one byte by its value, several by their first and last position. -/
def Fault.message (f : Fault) : String :=
  let place :=
    if f.length = 1 then
      s!"byte 0x{hexByte f.lead} in position {f.position}"
    else
      s!"bytes in position {f.position}-{f.position + f.length - 1}"
  s!"'utf-8' codec can't decode {place}: {f.cause.message}"

/-- What a lead byte announces: its payload bits, the number of continuation bytes, and the range
of the first of them. -/
structure Lead where
  payload : Nat
  tails : Nat
  low : Nat
  high : Nat
  deriving DecidableEq, Repr

/-- The announcement of a byte that can begin a character. -/
def lead? (b : UInt8) : Option Lead :=
  let n := b.toNat
  if n < 0x80 then some ⟨n, 0, 0x80, 0xBF⟩
  else if n < 0xC2 then none
  else if n < 0xE0 then some ⟨n - 0xC0, 1, 0x80, 0xBF⟩
  else if n = 0xE0 then some ⟨0, 2, 0xA0, 0xBF⟩
  else if n = 0xED then some ⟨0xD, 2, 0x80, 0x9F⟩
  else if n < 0xF0 then some ⟨n - 0xE0, 2, 0x80, 0xBF⟩
  else if n = 0xF0 then some ⟨0, 3, 0x90, 0xBF⟩
  else if n < 0xF4 then some ⟨n - 0xF0, 3, 0x80, 0xBF⟩
  else if n = 0xF4 then some ⟨4, 3, 0x80, 0x8F⟩
  else none

/-- Reads the continuation bytes that are still owed. A failure tells its cause and how many of
them were good; `low` and `high` bound the next one. -/
def tails (low high : Nat) : Nat → Nat → Nat → List UInt8 → Except (Cause × Nat) Nat
  | 0, _, payload, _ => .ok payload
  | _ + 1, good, _, [] => .error (.unexpectedEnd, good)
  | owed + 1, good, payload, b :: rest =>
    if low ≤ b.toNat && b.toNat ≤ high then
      tails 0x80 0xBF owed (good + 1) (payload * 64 + (b.toNat - 0x80)) rest
    else
      .error (.invalidContinuation, good)

/-- Reads from a position on. The first argument counts continuation bytes of the last character
that are still to be passed over. -/
def decodeFrom : Nat → Nat → List UInt8 → Except Fault Text
  | _, _, [] => .ok []
  | skip + 1, position, _ :: rest => decodeFrom skip (position + 1) rest
  | 0, position, b :: rest =>
    match lead? b with
    | none => .error ⟨position, b, 1, .invalidStart⟩
    | some lead =>
      match tails lead.low lead.high lead.tails 0 lead.payload rest with
      | .error (cause, good) => .error ⟨position, b, good + 1, cause⟩
      | .ok code => (Char.ofNat code :: ·) <$> decodeFrom lead.tails (position + 1) rest

/-- The characters that the bytes encode, or the first fault. -/
def decode (bytes : List UInt8) : Except Fault Text := decodeFrom 0 0 bytes

end TextMask.Utf8
