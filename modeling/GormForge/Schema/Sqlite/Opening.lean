import GormForge.FileTree.Action
import GormForge.Schema.Sqlite.Source
import GormForge.Text.Percent

/-!
# Opening SQLite databases

The file that a `sqlite:` url names and the ways in which its parameters have it opened.

**Input.**  The text after the scheme is a percent-encoded file name, then `?` and
parameters in the form of a query.  The name `:memory:` and the empty name stand for a
database that lives no longer than its connection.

**Algorithm.**  A file that does not exist is created on request only.  An empty file is an
empty database; whether another file is a database shows when it is read.

**Results.**  `Opening.ofUrl?` reads a url, `Opening.connect` gives the schema source.
-/

namespace GormForge
namespace Sqlite

/-- How a database is opened. -/
structure Opening where
  /-- The file, none for a database in memory. -/
  file : Option Path
  readOnly : Bool := false
  createMissing : Bool := false
  deriving Repr, DecidableEq

/-! ## Urls -/

/-- A text without the repetitions of `lead` at its start, up to a number of them. -/
def afterRepeated (lead : List Char) : Nat → List Char → List Char
  | 0, cs => cs
  | n + 1, cs =>
    match Text.afterPrefix? lead cs with
    | some rest => afterRepeated lead n rest
    | none => cs

/-- A url without its scheme. -/
def withoutScheme (url : List Char) : List Char :=
  let rest := afterRepeated "sqlite://".toList url.length url
  afterRepeated "sqlite:".toList rest.length rest

/-- A name or a value in a query: a plus sign stands for a space. -/
def queryText (cs : List Char) : String :=
  Text.decodeLossy (Text.percentDecode (cs.map fun c => if c == '+' then ' ' else c))

/-- The names and values of a query. -/
def queryParts (cs : List Char) : List (String × String) :=
  ((cs.splitOn '&').filter fun part => !part.isEmpty).map fun part =>
    match Text.splitFirst? ['='] part with
    | some (name, value) => (queryText name, queryText value)
    | none => (queryText part, "")

namespace Opening

/-- Take one parameter into account; an unknown name or value is refused. -/
def withParameter (opening : Opening) : String × String → Option Opening
  | ("mode", "ro") => some { opening with readOnly := true }
  | ("mode", "rw") => some opening
  | ("mode", "rwc") => some { opening with createMissing := true }
  | ("mode", "memory") => some { opening with file := none }
  | ("cache", value) => if ["private", "shared"].contains value then some opening else none
  | ("immutable", value) =>
      if ["true", "1", "false", "0"].contains value then some opening else none
  | _ => none

/-- The opening of a percent-encoded file name. -/
def ofName? (name : List Char) : Option Opening :=
  if name = ":memory:".toList then
    some ⟨none, false, false⟩
  else
    (Text.decode? (Text.percentDecode name)).map fun text =>
      ⟨if text.isEmpty then none else some ⟨text⟩, false, false⟩

/-- The opening that a url describes. -/
def ofUrl? (url : String) : Option Opening :=
  match Text.splitFirst? ['?'] (withoutScheme url.toList) with
  | none => ofName? (withoutScheme url.toList)
  | some (name, query) =>
      (ofName? name).bind fun opening => (queryParts query).foldlM withParameter opening

/-! ## Connections -/

/-- What can be read from a file with a given content. -/
def sourceOf (catalogOf? : Content → Option Catalog) (content : Content) : SchemaSource :=
  if content = .text "" then source [] else ((catalogOf? content).map source).getD unreadable

/-- Open a database, where `catalogOf?` tells which contents are databases. -/
def connect (catalogOf? : Content → Option Catalog) (opening : Opening) :
    FileAction SchemaError SchemaSource :=
  fun tree =>
    match opening.file with
    | none => (.ok (source []), tree)
    | some file =>
      match tree.lookup file with
      | .ok (.file content) => (.ok (sourceOf catalogOf? content), tree)
      | .ok .directory => (.error (.connect .sqlite), tree)
      | .error _ =>
        if opening.createMissing && !opening.readOnly then
          match tree.write file (.text "") with
          | .ok written => (.ok (source []), written)
          | .error _ => (.error (.connect .sqlite), tree)
        else
          (.error (.connect .sqlite), tree)

end Opening
end Sqlite
end GormForge
