import GormForge.IoError
import GormForge.Keyed
import GormForge.Path
import GormForge.Text.Utf8

/-!
# File trees

Directories and files below a root, with a working directory.

**Input.**  A tree maps locations, the names on the way down from the root, to nodes.  The
root itself is always a directory.  There are no permissions, no symbolic links and no full
disks: an operation fails only by its path and by what stands there.

**Algorithm.**  `resolve` walks a path segment by segment the way a file system does: what
comes before a segment has to be a directory that exists.

**Results.**  `lookup` sees a node through a path; `get?_place` says that placing a node
changes its own location only.
-/

namespace GormForge

/-- What a file holds: a text, or bytes that are no text. -/
inductive Content where
  | text (s : String)
  | binary (bytes : List UInt8)
  deriving Repr, DecidableEq

/-- The content that a list of bytes amounts to. -/
def Content.ofBytes (bytes : List UInt8) : Content :=
  match Text.decode? bytes with
  | some s => .text s
  | none => .binary bytes

/-- A node of a file tree. -/
inductive FileNode where
  | directory
  | file (content : Content)
  deriving Repr, DecidableEq

/-- Whether a node is a directory. -/
def FileNode.isDirectory : FileNode → Bool
  | directory => true
  | file _ => false

/-- The names on the way from the root to a node. -/
abbrev Location := List String

/-- A tree of files. -/
structure FileTree where
  nodes : List (Location × FileNode) := []
  /-- Where relative paths begin. -/
  cwd : Location := []
  deriving Repr, DecidableEq, Inhabited

namespace FileTree

/-- The path of the working directory. -/
def workingDirectory (tree : FileTree) : Path :=
  ⟨"/" ++ String.intercalate "/" tree.cwd⟩

/-- The node at a location. -/
def get? (tree : FileTree) (location : Location) : Option FileNode :=
  if location = [] then some .directory else Keyed.get? location tree.nodes

/-- Place a node at a location, instead of the one that stands there. -/
def place (tree : FileTree) (location : Location) (node : FileNode) : FileTree :=
  { tree with nodes := Keyed.put location node tree.nodes }

@[simp] theorem get?_place
    (tree : FileTree)
    (location other : Location)
    (node : FileNode) :
    (tree.place location node).get? other =
      if location = other ∧ other ≠ [] then some node else tree.get? other := by
  unfold get? place
  by_cases h : other = []
  · simp [h]
  · simp [h]

@[simp] theorem cwd_place
    (tree : FileTree)
    (location : Location)
    (node : FileNode) :
    (tree.place location node).cwd = tree.cwd := by
  rfl

/-- Remove a location and all below it. -/
def prune (tree : FileTree) (location : Location) : FileTree :=
  { tree with nodes := tree.nodes.filter fun entry => !location.isPrefixOf entry.1 }

/-! ## Walking -/

/-- The longest name and the longest path, in bytes. -/
def maxNameBytes : Nat := 255

/-- The least length of a path that is too long, in bytes. -/
def pathBytesLimit : Nat := 4096

/-- Require a location to be an existing directory. -/
def requireDirectory (tree : FileTree) (location : Location) : Except IoError Unit :=
  match tree.get? location with
  | some .directory => .ok ()
  | some (.file _) => .error .notADirectory
  | none => .error .notFound

/-- One step of a walk. -/
def step (location : Location) (segment : List Char) : Except IoError Location :=
  if Path.isIdle segment then .ok location
  else if segment = ['.', '.'] then .ok location.dropLast
  else if Text.byteLength segment > maxNameBytes then .error .nameTooLong
  else .ok (location ++ [String.ofList segment])

/-- Walk a list of segments from a location. -/
def walk (tree : FileTree) (location : Location) : List (List Char) → Except IoError Location
  | [] => .ok location
  | segment :: rest =>
    match tree.requireDirectory location with
    | .error e => .error e
    | .ok () =>
      match step location segment with
      | .error e => .error e
      | .ok next => walk tree next rest

/-- Refuse a path along which no walk can begin. -/
def checkText (p : Path) : Except IoError Unit :=
  if p.text.isEmpty then .error .notFound
  else if p.text.toList.contains (Char.ofNat 0) then .error .invalidInput
  else if Text.byteLength p.text.toList ≥ pathBytesLimit then .error .nameTooLong
  else .ok ()

/-- Where a walk along a path begins. -/
def startOf (tree : FileTree) (p : Path) : Location :=
  if p.isAbsolute then [] else tree.cwd

/-- The location that a path names; what stands there need not exist. -/
def resolve (tree : FileTree) (p : Path) : Except IoError Location :=
  match checkText p with
  | .error e => .error e
  | .ok () => tree.walk (tree.startOf p) p.segments

/-- The node that a path names. -/
def lookup (tree : FileTree) (p : Path) : Except IoError FileNode :=
  match tree.resolve p with
  | .error e => .error e
  | .ok location =>
    match tree.get? location with
    | some node => .ok node
    | none => .error .notFound

/-- Whether a path names an existing node. -/
def pathExists (tree : FileTree) (p : Path) : Bool :=
  (tree.lookup p).isOk

/-- Whether a path names an existing directory. -/
def isDirectory (tree : FileTree) (p : Path) : Bool :=
  match tree.lookup p with
  | .ok .directory => true
  | _ => false

/-- The text of the file that a path names. -/
def readText (tree : FileTree) (p : Path) : Except IoError String :=
  match tree.lookup p with
  | .error e => .error e
  | .ok .directory => .error .isADirectory
  | .ok (.file (.binary _)) => .error .invalidData
  | .ok (.file (.text s)) => .ok s

/-! ## Directories -/

/-- The name of a node in the directory at a location, if it stands there. -/
def nameIn? (location other : Location) : Option String :=
  match other.getLast? with
  | some name => if other.dropLast = location then some name else none
  | none => none

/-- The nodes in the directory at a location, by name. -/
def entriesAt (tree : FileTree) (location : Location) : List (String × FileNode) :=
  (tree.nodes.filterMap fun entry =>
    (nameIn? location entry.1).map fun name => (name, entry.2)).mergeSort
      fun a b => a.1 ≤ b.1

/-- The entries of the directory that a path names, by name. -/
def readDirectory (tree : FileTree) (p : Path) : Except IoError (List (String × FileNode)) :=
  match tree.resolve p with
  | .error e => .error e
  | .ok location =>
    match tree.get? location with
    | none => .error .notFound
    | some (.file _) => .error .notADirectory
    | some .directory => .ok (tree.entriesAt location)

/-! ## Snapshots -/

/-- The text of a location below another one. -/
def relativeText (below location : Location) : String :=
  String.intercalate "/" (location.drop below.length)

/-- The files at or below a location and the directories that hold nothing, with their
names as seen from there; the name of a directory ends in a slash. -/
def leavesBelow (tree : FileTree) (location : Location) : List (String × FileNode) :=
  tree.nodes.filterMap fun entry =>
    if location.isPrefixOf entry.1 && entry.1 ≠ location then
      match entry.2 with
      | .file content => some (relativeText location entry.1, .file content)
      | .directory =>
          if (tree.entriesAt entry.1).isEmpty then
            some (relativeText location entry.1 ++ "/", .directory)
          else
            none
    else
      none

end FileTree
end GormForge
