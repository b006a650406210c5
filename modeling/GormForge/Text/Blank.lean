/-!
# Blanks and trimming

**Input.**  A text as a list of characters.

**Results.**  `isBlank` is the property White_Space: 25 characters, the six ASCII ones
among them.  `trim` removes blanks from both ends and nothing else.
-/

namespace GormForge
namespace Text

/-- The White_Space property. -/
def isBlank (c : Char) : Bool :=
  let code := c.toNat
  (9 ≤ code && code ≤ 13) || code == 0x20 || code == 0x85 || code == 0xA0 || code == 0x1680 ||
    (0x2000 ≤ code && code ≤ 0x200A) || code == 0x2028 || code == 0x2029 || code == 0x202F ||
    code == 0x205F || code == 0x3000

/-- Drop the longest run at the end whose characters satisfy `p`. -/
def trimEndBy (p : Char → Bool) (cs : List Char) : List Char :=
  (cs.reverse.dropWhile p).reverse

/-- Drop the longest runs at both ends whose characters satisfy `p`. -/
def trimBy (p : Char → Bool) (cs : List Char) : List Char :=
  trimEndBy p (cs.dropWhile p)

/-- Drop the blanks at both ends. -/
def trimChars (cs : List Char) : List Char :=
  trimBy isBlank cs

/-- Drop the blanks at both ends of a string. -/
def trim (s : String) : String :=
  String.ofList (trimChars s.toList)

@[simp] theorem toList_trim
    (s : String) :
    (trim s).toList = trimChars s.toList := by
  simp [trim]

end Text
end GormForge
