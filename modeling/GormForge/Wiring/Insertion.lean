import GormForge.Path

/-!
# Insertions

The entries that go into provider files, the marker lines above which they go, and what
can go wrong on the way.
-/

namespace GormForge

/-- A text to be inserted above a marker line. -/
structure Insertion where
  marker : String
  text : String
  deriving Repr, DecidableEq

namespace Insertion

/-- The marker line for repositories. -/
def repositoryMarker : String :=
  "// ==== Add Repo before this line, don't edit this line.===="

/-- The marker line for controllers. -/
def controllerMarker : String :=
  "// ==== Add Controller before this line, don't edit this line.===="

/-- The marker line for services. -/
def serviceMarker : String :=
  "// ==== Add Service before this line, don't edit this line.===="

/-- The marker line for caches. -/
def cacheMarker : String :=
  "// ==== Add Cache before this line, don't edit this line.===="

/-- An entry for a constructor. -/
def provider (marker ctor : String) : Insertion :=
  ⟨marker, "    " ++ ctor ++ ","⟩

/-- The entry for the repository of a struct. -/
def repository (package structName : String) : Insertion :=
  provider repositoryMarker (package ++ ".New" ++ structName ++ "Db")

end Insertion

/-- What became of one insertion in one file. -/
inductive Patch where
  | inserted (line : Nat)
  | alreadyPresent
  | noMarker
  deriving Repr, DecidableEq

namespace Patch

/-- The wording of a patch. -/
def message : Patch → String
  | inserted line => s!"inserted at line {line}"
  | alreadyPresent => "already present"
  | noMarker => "no marker"

/-- Whether the entry stands in the file after the patch. -/
def isPlaced : Patch → Bool
  | noMarker => false
  | _ => true

/-- Whether the patch changed the file. -/
def isInserted : Patch → Bool
  | inserted _ => true
  | _ => false

/-- The line at which the entry was inserted. -/
def line? : Patch → Option Nat
  | inserted line => some line
  | _ => none

end Patch

/-- What became of an insertion in a particular file. -/
structure PatchOutcome where
  path : Path
  text : String
  patch : Patch
  deriving Repr, DecidableEq

end GormForge
