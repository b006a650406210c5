import GormForge.Text.Search

/-!
# Lines

**Input.**  A text whose lines end in a line feed, optionally after a carriage return.

**Results.**  `lines` are the lines without their terminators; a final line that is not
terminated keeps a trailing carriage return, and an empty one does not count.
`pieces` are the parts between line feeds, carriage returns included.
-/

namespace GormForge
namespace Text

/-- The parts of a text between its line feeds. -/
def pieces (cs : List Char) : List (List Char) :=
  cs.splitOn '\n'

/-- Drop one carriage return at the end. -/
def dropCarriageReturn (cs : List Char) : List Char :=
  (beforeSuffix? ['\r'] cs).getD cs

/-- Lines of the parts between line feeds. -/
def linesOfPieces : List (List Char) → List (List Char)
  | [] => []
  | [last] => if last = [] then [] else [last]
  | part :: rest => dropCarriageReturn part :: linesOfPieces rest

/-- The lines of a text. -/
def lines (cs : List Char) : List (List Char) :=
  linesOfPieces (pieces cs)

/-- Join parts with line feeds. -/
def joinLines (parts : List (List Char)) : List Char :=
  List.intercalate ['\n'] parts

/-- The lines of a string. -/
def stringLines (s : String) : List String :=
  (lines s.toList).map String.ofList

end Text
end GormForge
