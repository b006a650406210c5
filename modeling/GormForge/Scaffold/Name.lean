import GormForge.Path
import GormForge.Text.Case

/-!
# Scaffold names

A name argument such as `user` or `admin/user.go`, taken apart.

**Algorithm.**  What precedes the last slash of either kind is the directory.  The rest
begins with a capital and loses every `.go` in it.
-/

namespace GormForge

/-- A scaffold's name. -/
structure ScaffoldName where
  directory : Option Path
  /-- The name with a leading capital. -/
  name : String
  /-- The name with a small leading letter. -/
  lowerName : String
  firstChar : String
  deriving Repr, DecidableEq

namespace ScaffoldName

/-- A slash of either kind. -/
def isSlash (c : Char) : Bool :=
  c == '/' || c == '\\'

/-- The characters up to the last slash, and those after it. -/
def splitDirectory (cs : List Char) : List Char × List Char :=
  let file := (cs.reverse.takeWhile (!isSlash ·)).reverse
  (cs.take (cs.length - file.length), file)

/-- The name that an argument gives, if one is left. -/
def parse? (argument : String) : Option ScaffoldName :=
  let (directory, file) := splitDirectory argument.toList
  let name := Text.replaceAll ".go".toList [] (Text.upperFirstChars file)
  match Text.lowerFirstChars name with
  | [] => none
  | first :: rest =>
    some {
      directory := if directory = [] then none else some ⟨String.ofList directory⟩
      name := String.ofList name
      lowerName := String.ofList (first :: rest)
      firstChar := String.singleton first }

/-- The name of the file. -/
def fileName (name : ScaffoldName) : String :=
  Text.lower name.name ++ ".go"

end ScaffoldName
end GormForge
