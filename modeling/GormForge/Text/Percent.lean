import GormForge.Text.Utf8

/-!
# Percent-encoding

**Input.**  A text.

**Results.**  `percentEncode` keeps ASCII letters, digits and `-`, `_`, `.`, `~`, and
writes every other byte as a percent sign and two capital hexadecimal digits.
`percentDecode` reads such escapes back, byte by byte.
-/

namespace GormForge
namespace Text

/-- The characters that are never escaped. -/
def isUnreserved (c : Char) : Bool :=
  c.isAlphanum || c == '-' || c == '_' || c == '.' || c == '~'

/-- The capital hexadecimal digit of a number below sixteen. -/
def hexDigit (n : Nat) : Char :=
  Char.ofNat (if n < 10 then 48 + n else 55 + n)

/-- The value of a hexadecimal digit of either case. -/
def hexValue? (c : Char) : Option Nat :=
  if c.isDigit then some (c.toNat - 48)
  else if 'a' ≤ c && c ≤ 'f' then some (c.toNat - 87)
  else if 'A' ≤ c && c ≤ 'F' then some (c.toNat - 55)
  else none

/-- The escape of one byte. -/
def escapeByte (b : UInt8) : List Char :=
  ['%', hexDigit (b.toNat / 16), hexDigit (b.toNat % 16)]

/-- One character as it stands in an encoded text. -/
def percentEncodeChar (c : Char) : List Char :=
  if isUnreserved c then [c] else (String.utf8EncodeChar c).flatMap escapeByte

/-- Percent-encode a text. -/
def percentEncode (cs : List Char) : List Char :=
  cs.flatMap percentEncodeChar

/-- The bytes of a text whose escapes are read back; a percent sign that starts no
escape stands for itself. -/
def percentDecode : List Char → List UInt8
  | [] => []
  | '%' :: hi :: lo :: rest =>
    match hexValue? hi, hexValue? lo with
    | some h, some l => UInt8.ofNat (h * 16 + l) :: percentDecode rest
    | _, _ => String.utf8EncodeChar '%' ++ percentDecode (hi :: lo :: rest)
  | c :: rest => String.utf8EncodeChar c ++ percentDecode rest

end Text
end GormForge
