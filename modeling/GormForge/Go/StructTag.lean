import GormForge.Text.Percent

/-!
# Struct tags

The grammar of Go struct tags: entries of a key, a colon and a value in double quotes, with
spaces between them.

**Algorithm.**  A value is a quoted Go string.  A backslash in it begins an escape for a character
or for a byte, by a letter or by a number in base eight or sixteen; so a value is read as bytes.

**Results.**  `entries?` reads a whole tag, in order.
-/

namespace GormForge
namespace Go
namespace StructTag

/-! ## Escapes -/

/-- The character that a letter stands for after a backslash. -/
def escaped? : Char → Option Char
  | 'a' => some '\x07'
  | 'b' => some '\x08'
  | 'f' => some '\x0c'
  | 'n' => some '\n'
  | 'r' => some '\r'
  | 't' => some '\t'
  | 'v' => some '\x0b'
  | '\\' => some '\\'
  | '"' => some '"'
  | _ => none

/-- The number written by the next `count` digits of a base. -/
def number? (base count : Nat) (cs : List Char) : Option Nat :=
  if (cs.take count).length = count then
    (cs.take count).foldlM (fun acc c =>
      ((Text.hexValue? c).filter (· < base)).map fun digit => acc * base + digit) 0
  else
    none

/-- The byte written by the next `count` digits of a base. -/
def byte? (base count : Nat) (cs : List Char) : Option (List UInt8) :=
  ((number? base count cs).filter (· < 256)).map fun n => [UInt8.ofNat n]

/-- The bytes of the character whose code point is written by the next `count` digits. -/
def codePoint? (count : Nat) (cs : List Char) : Option (List UInt8) :=
  ((number? 16 count cs).filter Nat.isValidChar).map fun n =>
    String.utf8EncodeChar (Char.ofNat n)

/-- The bytes that an escape stands for, read after its backslash, and how many characters it
takes. -/
def escape? : List Char → Option (List UInt8 × Nat)
  | [] => none
  | c :: rest =>
    match c with
    | 'x' => (byte? 16 2 rest).map fun bytes => (bytes, 3)
    | 'u' => (codePoint? 4 rest).map fun bytes => (bytes, 5)
    | 'U' => (codePoint? 8 rest).map fun bytes => (bytes, 9)
    | _ =>
      match escaped? c with
      | some d => some (String.utf8EncodeChar d, 1)
      | none => (byte? 8 3 (c :: rest)).map fun bytes => (bytes, 3)

/-! ## Values -/

/-- The bytes of a value up to its closing quote, and the text after it; the first `skip`
characters belong to an escape that was read. -/
def valueFrom : Nat → List Char → Option (List UInt8 × List Char)
  | _, [] => none
  | skip + 1, _ :: rest => valueFrom skip rest
  | 0, c :: rest =>
    if c = '"' then some ([], rest)
    else if c = '\n' then none
    else if c = '\\' then
      match escape? rest with
      | none => none
      | some (bytes, taken) =>
          (valueFrom taken rest).map fun found => (bytes ++ found.1, found.2)
    else
      (valueFrom 0 rest).map fun found => (String.utf8EncodeChar c ++ found.1, found.2)

/-- The bytes of a value up to its closing quote, and the text after it. -/
def value? (cs : List Char) : Option (List UInt8 × List Char) :=
  valueFrom 0 cs

/-! ## Entries -/

/-- A character of a key. -/
def isKeyChar (c : Char) : Bool :=
  c.toNat > 0x20 && c.toNat != 0x7F && c != ':' && c != '"'

/-- The entries of a tag, of which at most `limit` pieces are read. -/
def entriesWithin : Nat → List Char → Option (List (String × List UInt8))
  | 0, _ => none
  | limit + 1, cs =>
    match cs.dropWhile (· == ' ') with
    | [] => some []
    | tag =>
      match tag.takeWhile isKeyChar, tag.dropWhile isKeyChar with
      | [], _ => none
      | key, ':' :: '"' :: rest =>
        match value? rest with
        | none => none
        | some (value, after) =>
            (entriesWithin limit after).map ((String.ofList key, value) :: ·)
      | _, _ => none

/-- The entries of a tag. -/
def entries? (tag : String) : Option (List (String × List UInt8)) :=
  entriesWithin (tag.length + 1) tag.toList

end StructTag
end Go
end GormForge
