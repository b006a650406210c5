import GormForge.FileTree.Basic
import GormForge.Text.Blank
import GormForge.Text.Lines

/-!
# Go modules

The module path that a `go.mod` file declares.

**Results.**  `declaredModule?` is the first line that consists of the word `module`, blanks
and a path, without comment and quotes; `ofDirectory` reads it from a directory.
-/

namespace GormForge
namespace GoModule

/-- The text before the first comment. -/
def withoutComment (cs : List Char) : List Char :=
  match Text.splitFirst? "//".toList cs with
  | some (front, _) => front
  | none => cs

/-- The module path that a line declares. -/
def ofLine? (line : List Char) : Option String :=
  match Text.afterPrefix? "module".toList (Text.trimChars line) with
  | none => none
  | some rest =>
    if rest.head?.any Text.isBlank then
      let path := Text.trimBy (· == '"') (Text.trimChars (withoutComment rest))
      if path = [] then none else some (String.ofList path)
    else
      none

/-- The module path that a text declares. -/
def declaredModule? (content : String) : Option String :=
  (Text.lines content.toList).findSome? ofLine?

/-- The module path that a directory declares, none if it has no `go.mod`. -/
def ofDirectory (tree : FileTree) (directory : Path) : Except IoError (Option String) :=
  match tree.readText (directory.child "go.mod") with
  | .ok content => .ok (declaredModule? content)
  | .error .notFound => .ok none
  | .error e => .error e

end GoModule
end GormForge
