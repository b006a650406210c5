import GormForge.FileTree.Basic

/-!
# Wire files

The directories in which the injector generator has something to do: those that hold a file
`wire.go`.

**Input.**  A path, and what reading a directory gives: its entries, in any order, or the reason
why it cannot be read.

**Algorithm.**  The search goes from directory to directory, as deep as the tree goes, and
passes by directories with certain names.  The first directory that cannot be read ends it.
The directories that were found are sorted in the end.

**Results.**  `directoriesBelow` gives the directories in the order of their paths.
-/

namespace GormForge
namespace WireFiles

/-- The name of the file that is searched for. -/
def fileName : String := "wire.go"

/-- The names of directories that are not searched. -/
def skippedNames : List String :=
  [".git", ".idea", "tmp", "vendor", "node_modules"]

/-- What reading a directory gives. -/
abbrev Reader := Path → Except IoError (List (String × FileNode))

/-- The directories that an entry of a directory leads to, where `search` gives those at or below
a directory. -/
def leadsTo (search : Path → Except IoError (List Path)) (directory : Path)
    (entry : String × FileNode) : Except IoError (List Path) :=
  if entry.2.isDirectory then
    if skippedNames.contains entry.1 then .ok []
    else search (directory.child entry.1)
  else if entry.1 = fileName then
    .ok [directory]
  else
    .ok []

/-- What the entries of a directory lead to, up to the first failure. -/
def collect (visit : String × FileNode → Except IoError (List Path)) :
    List (String × FileNode) → Except IoError (List Path)
  | [] => .ok []
  | entry :: rest =>
    match visit entry with
    | .error e => .error e
    | .ok found =>
      match collect visit rest with
      | .error e => .error e
      | .ok more => .ok (found ++ more)

/-- The directories that hold a wire file, at or below a directory and at most `depth`
directories deep. -/
def directoriesWithin (read : Reader) : Nat → Path → Except IoError (List Path)
  | 0, _ => .ok []
  | depth + 1, directory =>
    match read directory with
    | .error e => .error e
    | .ok entries => collect (leadsTo (directoriesWithin read depth) directory) entries

/-- The number of names on the longest way down from the root. -/
def depthOf (tree : FileTree) : Nat :=
  (tree.nodes.map fun entry => entry.1.length).foldl max 0

/-- The directories within a depth that hold a wire file, in the order of their paths. -/
def directoriesListed (read : Reader) (depth : Nat) (base : Path) :
    Except IoError (List Path) :=
  (directoriesWithin read depth base).map Path.sort

/-- The directories at or below a directory that hold a wire file. -/
def directoriesBelow (tree : FileTree) (base : Path) : Except IoError (List Path) :=
  directoriesListed tree.readDirectory (depthOf tree + 1) base

end WireFiles
end GormForge
