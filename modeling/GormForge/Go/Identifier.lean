import GormForge.Text.Case

/-!
# Go identifiers

Which texts can name things in a Go source file.

**Results.**  `isWord` is the class `\w+` of ASCII letters, digits and underscores;
`isPackageName` also refuses a leading digit, `isExportedWord` asks for a leading capital.
-/

namespace GormForge
namespace Go

/-- A character of a word. -/
def isWordChar (c : Char) : Bool :=
  c.isAlphanum || c == '_'

/-- Whether a text is a nonempty run of word characters. -/
def isWord (s : String) : Bool :=
  !s.toList.isEmpty && s.toList.all isWordChar

/-- Whether a text begins with an ASCII digit. -/
def beginsWithDigit (s : String) : Bool :=
  s.toList.head?.any Char.isDigit

/-- Whether a text can name a Go package. -/
def isPackageName (s : String) : Bool :=
  isWord s && !beginsWithDigit s

/-- Whether a text is a word that begins with a capital, so that other packages see it. -/
def isExportedWord (s : String) : Bool :=
  isWord s && s.toList.head?.any Char.isUpper

theorem isWord_iff
    {s : String} :
    isWord s = true ↔ s.toList ≠ [] ∧ ∀ c ∈ s.toList, isWordChar c = true := by
  simp [isWord]

end Go
end GormForge
