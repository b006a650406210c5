import GormForge.Text.CaseTable

/-!
# Letter case

Upper and lower case of characters and texts of any script.

**Algorithm.**  ASCII letters map by offset; all others through the tables of
`GormForge.Text.CaseTable`.  Lowering a text additionally writes a capital sigma at the
end of a word as a final sigma.
-/

namespace GormForge
namespace Text

/-- The image of a code point under the first range that holds it. -/
def caseImage? (ranges : List CaseRange) (code : Nat) : Option Nat :=
  ranges.findSome? fun range => range.image? code

/-- Lower case of one character; only the capital I with dot above takes two. -/
def lowerChar (c : Char) : List Char :=
  if c.toNat < 0x80 then
    [c.toLower]
  else if c.toNat = 0x130 then
    ['i', Char.ofNat 0x307]
  else
    [((caseImage? lowerRanges c.toNat).map Char.ofNat).getD c]

/-- Upper case of one character, which may take several. -/
def upperChar (c : Char) : List Char :=
  if c.toNat < 0x80 then
    [c.toUpper]
  else
    match upperExpansions.lookup c.toNat with
    | some codes => codes.map Char.ofNat
    | none => [((caseImage? upperRanges c.toNat).map Char.ofNat).getD c]

/-- Raise the first character of a text. -/
def upperFirstChars : List Char → List Char
  | [] => []
  | c :: cs => upperChar c ++ cs

/-- Lower the first character of a text. -/
def lowerFirstChars : List Char → List Char
  | [] => []
  | c :: cs => lowerChar c ++ cs

/-- Raise the first character of a string: `user` becomes `User`. -/
def upperFirst (s : String) : String :=
  String.ofList (upperFirstChars s.toList)

/-- Lower the first character of a string: `UserRole` becomes `userRole`. -/
def lowerFirst (s : String) : String :=
  String.ofList (lowerFirstChars s.toList)

/-! ## Whole texts -/

/-- Whether a code point lies in one of the ranges. -/
def inRanges (ranges : List (Nat × Nat)) (c : Char) : Bool :=
  ranges.any fun range => range.1 ≤ c.toNat && c.toNat ≤ range.2

/-- Whether, past the case-ignorable characters, a cased letter comes next. -/
def casedAhead (cs : List Char) : Bool :=
  match cs.dropWhile (inRanges caseIgnorableRanges) with
  | [] => false
  | c :: _ => inRanges casedRanges c

/-- The capital letter sigma. -/
def capitalSigma : Char := Char.ofNat 0x3A3

/-- Lower case of a text that follows the reversed text `before`. -/
def lowerAfter (before : List Char) : List Char → List Char
  | [] => []
  | c :: cs =>
    if c = capitalSigma then
      Char.ofNat (if casedAhead before && !casedAhead cs then 0x3C2 else 0x3C3) ::
        lowerAfter (c :: before) cs
    else
      lowerChar c ++ lowerAfter (c :: before) cs

/-- Lower case of a string. -/
def lower (s : String) : String :=
  String.ofList (lowerAfter [] s.toList)

/-- Upper case of a string. -/
def upper (s : String) : String :=
  String.ofList (s.toList.flatMap upperChar)

end Text
end GormForge
