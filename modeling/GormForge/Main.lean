import GormForge.CommandLine.Run

/-!
# The program

The working directory is read into a file tree, the command line is carried out there, and
what has changed is written back.

**Input.**  Nothing but the working directory is seen: other programs are not run, and no
file is taken for a database.

**Results.**  Nothing outside the working directory is ever written.
-/

namespace GormForge
namespace Program

/-- How many directories deep a working directory is read. -/
def maxDepth : Nat := 64

/-- The names of directories that are not read. -/
def unreadNames : List String := [".git", "node_modules"]

/-- The directories on the way down to a location, itself included. -/
def wayTo (location : Location) : List (Location × FileNode) :=
  (List.range location.length).map fun n => (location.take (n + 1), .directory)

/-- The nodes at and below an entry of a directory. -/
def readEntry : Nat → Location → IO.FS.DirEntry → IO (List (Location × FileNode))
  | 0, _, _ => return []
  | depth + 1, location, entry => do
    let here := location ++ [entry.fileName]
    if ← entry.path.isDir then
      if unreadNames.contains entry.fileName then
        return [(here, .directory)]
      let below ← (← entry.path.readDir).toList.mapM (readEntry depth here)
      return (here, .directory) :: below.flatten
    else
      let bytes ← IO.FS.readBinFile entry.path
      return [(here, .file (Content.ofBytes bytes.toList))]

/-- The file tree around the working directory. -/
def readTree : IO FileTree := do
  let directory ← IO.currentDir
  let cwd : Location := (directory.toString.splitOn "/").filter (· ≠ "")
  let below ← (← directory.readDir).toList.mapM (readEntry maxDepth cwd)
  return { nodes := wayTo cwd ++ below.flatten, cwd := cwd }

/-- Whether a location lies below the working directory. -/
def isInside (tree : FileTree) (location : Location) : Bool :=
  tree.cwd.isPrefixOf location && tree.cwd ≠ location

/-- The nodes that a run made or changed. -/
def changes (before after : FileTree) : List (Location × FileNode) :=
  after.nodes.filter fun entry => before.get? entry.1 ≠ some entry.2

/-- Write a node to its place. -/
def writeNode (node : Location × FileNode) : IO Unit := do
  let path := "/" ++ String.intercalate "/" node.1
  match node.2 with
  | .directory => IO.FS.createDirAll path
  | .file (.text s) => IO.FS.writeFile path s
  | .file (.binary bytes) => IO.FS.writeBinFile path ⟨bytes.toArray⟩

end Program
end GormForge

/-- Carry out the command line in the working directory. -/
def main (args : List String) : IO UInt32 := do
  let before ← GormForge.Program.readTree
  let (outcome, after) := GormForge.CommandLine.run {} args before
  let changed := GormForge.Program.changes before after
  if changed.any fun entry => !GormForge.Program.isInside before entry.1 then
    IO.eprintln "Error: nothing is written outside the working directory"
    return 1
  changed.forM GormForge.Program.writeNode
  IO.print outcome.standardOutput
  IO.eprint outcome.errorOutput
  return outcome.exitCode.toUInt32
