import TextMask.Text.Basic

/-!
# Base 64

`Base64.decode` reads bytes that are written in base 64. Four digits write three bytes; characters
that are no digits are passed over. Equals signs behind the second digit of a group fill it up and
end the text; elsewhere they are passed over too.
-/

namespace TextMask.Base64

/-- The value of a digit. -/
def digit? (c : Char) : Option Nat :=
  if c.isUpper then some (c.toNat - 'A'.toNat)
  else if c.isLower then some (c.toNat - 'a'.toNat + 26)
  else if c.isDigit then some (c.toNat - '0'.toNat + 52)
  else if c == '+' then some 62
  else if c == '/' then some 63
  else none

/-- The bytes that a group of digits writes: one less than there are digits. Bits that fill no byte
are lost. -/
def groupBytes (group : List Nat) : List UInt8 :=
  let digits := group ++ List.replicate (4 - group.length) 0
  let bits := digits.foldl (fun n d => n * 64 + d) 0
  ([bits / 65536, bits / 256 % 256, bits % 256].map UInt8.ofNat).take (group.length - 1)

/-- Reads on with the digits of the group that has begun and the number of equals signs behind
them. -/
def decodeFrom (group : List Nat) (filled : Nat) : Text → Option (List UInt8)
  | [] => if group.isEmpty then some [] else none
  | c :: rest =>
    if c = '=' then
      if group.length < 2 then decodeFrom group filled rest
      else if group.length + filled < 3 then decodeFrom group (filled + 1) rest
      else some (groupBytes group)
    else
      match digit? c with
      | none => decodeFrom group filled rest
      | some d =>
        if group.length = 3 then
          (groupBytes (group ++ [d]) ++ ·) <$> decodeFrom [] 0 rest
        else decodeFrom (group ++ [d]) 0 rest

/-- The bytes that the text writes, unless its last group is not complete. -/
def decode (t : Text) : Option (List UInt8) := decodeFrom [] 0 t

end TextMask.Base64
