/-!
# UTF-8

**Input.**  A list of bytes.

**Algorithm.**  `nextUnit` reads one character or reports how the bytes at the front fail
to be one: `malformed n` says that their first `n` bytes can begin no character,
`truncated` that they begin one and the input ends inside it.

**Results.**  `decode?` accepts exactly the inputs made of whole characters;
`decodeLossy` writes a replacement character for each failure.
-/

namespace GormForge
namespace Text

/-- The unit at the front of a list of bytes. -/
inductive Utf8Unit where
  | character (c : Char)
  | malformed (bytes : Nat)
  | truncated
  deriving Repr, DecidableEq

/-- Why a list of bytes is not a text: how many bytes are wrong, if the input does not
just end too early, and how many bytes before them are right. -/
structure Utf8Error where
  wrongBytes : Option Nat
  validUpTo : Nat
  deriving Repr, DecidableEq

/-- The wording of a decoding failure. -/
def Utf8Error.message (e : Utf8Error) : String :=
  match e.wrongBytes with
  | some n => s!"invalid utf-8 sequence of {n} bytes from index {e.validUpTo}"
  | none => s!"incomplete utf-8 byte sequence from index {e.validUpTo}"

/-- A byte that continues a character. -/
def isContinuation (b : UInt8) : Bool :=
  0x80 ≤ b && b ≤ 0xBF

/-- The second bytes that may follow the lead byte of a longer character. -/
def secondAllowed (lead second : UInt8) : Bool :=
  if lead = 0xE0 then 0xA0 ≤ second && second ≤ 0xBF
  else if lead = 0xED then 0x80 ≤ second && second ≤ 0x9F
  else if lead = 0xF0 then 0x90 ≤ second && second ≤ 0xBF
  else if lead = 0xF4 then 0x80 ≤ second && second ≤ 0x8F
  else isContinuation second

/-- The six value bits of a continuation byte. -/
def low6 (b : UInt8) : Nat :=
  b.toNat % 64

/-- The unit that begins with `lead`, and how many of the following bytes it takes. -/
def nextUnit (lead : UInt8) (rest : List UInt8) : Utf8Unit × Nat :=
  if lead < 0x80 then
    (.character (Char.ofNat lead.toNat), 0)
  else if 0xC2 ≤ lead && lead ≤ 0xDF then
    match rest with
    | [] => (.truncated, 0)
    | b :: _ =>
      if isContinuation b then
        (.character (Char.ofNat (lead.toNat % 32 * 64 + low6 b)), 1)
      else
        (.malformed 1, 0)
  else if 0xE0 ≤ lead && lead ≤ 0xEF then
    match rest with
    | [] => (.truncated, 0)
    | b :: rest =>
      if !secondAllowed lead b then (.malformed 1, 0)
      else
        match rest with
        | [] => (.truncated, 1)
        | c :: _ =>
          if isContinuation c then
            (.character (Char.ofNat (lead.toNat % 16 * 4096 + low6 b * 64 + low6 c)), 2)
          else
            (.malformed 2, 1)
  else if 0xF0 ≤ lead && lead ≤ 0xF4 then
    match rest with
    | [] => (.truncated, 0)
    | b :: rest =>
      if !secondAllowed lead b then (.malformed 1, 0)
      else
        match rest with
        | [] => (.truncated, 1)
        | c :: rest =>
          if !isContinuation c then (.malformed 2, 1)
          else
            match rest with
            | [] => (.truncated, 2)
            | d :: _ =>
              if isContinuation d then
                (.character (Char.ofNat
                  (lead.toNat % 8 * 262144 + low6 b * 4096 + low6 c * 64 + low6 d)), 3)
              else
                (.malformed 3, 2)
  else
    (.malformed 1, 0)

/-- The units of a list of bytes. -/
def utf8Units : List UInt8 → List Utf8Unit
  | [] => []
  | lead :: rest =>
    let found := nextUnit lead rest
    found.1 :: utf8Units (rest.drop found.2)
termination_by bytes => bytes.length
decreasing_by
  simp only [List.length_drop, List.length_cons]
  omega

/-- The characters of a list of units, the first of which stands at byte `offset`. -/
def charactersFrom (offset : Nat) : List Utf8Unit → Except Utf8Error (List Char)
  | [] => .ok []
  | .character c :: rest => (charactersFrom (offset + c.utf8Size) rest).map (c :: ·)
  | .malformed n :: _ => .error ⟨some n, offset⟩
  | .truncated :: _ => .error ⟨none, offset⟩

/-- The text written by a list of bytes. -/
def decode (bytes : List UInt8) : Except Utf8Error String :=
  (charactersFrom 0 (utf8Units bytes)).map String.ofList

/-- The text written by a list of bytes, if they are one. -/
def decode? (bytes : List UInt8) : Option String :=
  (decode bytes).toOption

/-- The character a unit shows, the replacement character for a failure. -/
def Utf8Unit.shown : Utf8Unit → Char
  | .character c => c
  | .malformed _ => Char.ofNat 0xFFFD
  | .truncated => Char.ofNat 0xFFFD

/-- The text written by a list of bytes, failures shown as replacement characters. -/
def decodeLossy (bytes : List UInt8) : String :=
  String.ofList ((utf8Units bytes).map Utf8Unit.shown)

/-- The bytes of a string. -/
def encode (s : String) : List UInt8 :=
  s.toList.flatMap String.utf8EncodeChar

end Text
end GormForge
