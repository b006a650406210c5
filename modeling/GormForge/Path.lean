import GormForge.Text.Search

/-!
# Paths

File names as texts whose segments are divided by slashes.

**Algorithm.**  Empty segments and dots that do not come first carry no meaning; a path
that begins with a slash is absolute.

**Results.**  `join`, `parent?`, `fileName?` and `absolute?` work on the text and keep the
segments they do not touch; `components` is the meaning by which paths are sorted.
-/

namespace GormForge

/-- The text of a path. -/
structure Path where
  text : String
  deriving Repr, DecidableEq, Inhabited

namespace Path

/-- A meaningful part of a path. -/
inductive Component where
  | root
  | current
  | up
  | name (s : String)
  deriving Repr, DecidableEq

/-- The texts between the slashes. -/
def segments (p : Path) : List (List Char) :=
  p.text.toList.splitOn '/'

/-- The path with the given segments. -/
def ofSegments (parts : List (List Char)) : Path :=
  ⟨String.ofList (List.intercalate ['/'] parts)⟩

/-- Whether a path begins at the root. -/
def isAbsolute (p : Path) : Bool :=
  p.text.toList.head? == some '/'

/-- Whether a path ends in a slash. -/
def endsInSlash (p : Path) : Bool :=
  p.text.toList.getLast? == some '/'

/-- Whether a segment carries no meaning unless it comes first. -/
def isIdle (segment : List Char) : Bool :=
  segment == [] || segment == ['.']

/-- The component of a segment that does not come first. -/
def componentOf? (segment : List Char) : Option Component :=
  if isIdle segment then none
  else if segment = ['.', '.'] then some .up
  else some (.name (String.ofList segment))

/-- The components of a list of segments. -/
def componentsOf : List (List Char) → List Component
  | [] => []
  | [[]] => []
  | first :: rest =>
    let lead :=
      if first = [] then some .root
      else if first = ['.'] then some .current
      else componentOf? first
    lead.toList ++ rest.filterMap componentOf?

/-- The components of a path. -/
def components (p : Path) : List Component :=
  componentsOf p.segments

/-- The name at the end of a path, if its last component is a name. -/
def fileName? (p : Path) : Option String :=
  match p.components.getLast? with
  | some (.name s) => some s
  | _ => none

/-- The path `relative` seen from `base`: an absolute path stands for itself. -/
def join (base relative : Path) : Path :=
  if relative.isAbsolute then
    relative
  else if base.text.isEmpty || base.endsInSlash then
    ⟨base.text ++ relative.text⟩
  else
    ⟨base.text ++ "/" ++ relative.text⟩

/-- The path `name` below `base`. -/
def child (base : Path) (name : String) : Path :=
  base.join ⟨name⟩

/-! ## Parents -/

/-- A path, given by its segments from the last to the first, and the paths above it. -/
def upward : List (List Char) → List Path
  | [] => []
  | [first] => if first = [] then [⟨"/"⟩] else [ofSegments [first], ⟨""⟩]
  | segment :: rest =>
    if isIdle segment then
      upward rest
    else
      ofSegments (segment :: rest).reverse :: upward rest

/-- The paths above a path, the nearest first. -/
def parents (p : Path) : List Path :=
  if p.text.isEmpty then [] else (upward p.segments.reverse).tail

/-- The path above a path; the root and the empty path have none. -/
def parent? (p : Path) : Option Path :=
  p.parents.head?

/-! ## Absolute paths -/

/-- The text of an absolute path that ends in the given components. -/
def extend (base : Path) : List Component → Path
  | [] => base
  | .name s :: rest => extend (base.child s) rest
  | .up :: rest => extend (base.child "..") rest
  | .root :: rest => extend base rest
  | .current :: rest => extend base rest

/-- Where the absolute form of a path begins. -/
def absoluteStart (cwd p : Path) : Path :=
  let text := p.text.toList
  if !p.isAbsolute then cwd
  else if Text.beginsWith "//".toList text && !Text.beginsWith "///".toList text then ⟨"//"⟩
  else ⟨"/"⟩

/-- The absolute form of a path: dots and doubled slashes go, two leading slashes, a slash at
the end and the way upward stay.  The empty path has none. -/
def absolute? (cwd p : Path) : Option Path :=
  if p.text.isEmpty then
    none
  else
    let whole := (absoluteStart cwd p).extend p.components
    some (if p.endsInSlash then whole.child "" else whole)

/-! ## Order -/

/-- The place of a component among the kinds of components. -/
def Component.rank : Component → Nat
  | root => 0
  | current => 1
  | up => 2
  | name _ => 3

/-- Whether one component comes strictly before another. -/
def Component.before : Component → Component → Bool
  | name s, name t => s < t
  | a, b => a.rank < b.rank

/-- Whether one list of components comes before another or equals it. -/
def notAfter : List Component → List Component → Bool
  | [], _ => true
  | _ :: _, [] => false
  | a :: as, b :: bs => a.before b || (a == b && notAfter as bs)

/-- Paths in order of their components. -/
def sort (paths : List Path) : List Path :=
  paths.mergeSort fun p q => notAfter p.components q.components

end Path
end GormForge
