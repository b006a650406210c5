import GormForge.FileTree.Action
import GormForge.Wiring.Marker

/-!
# Provider files

The files next to a generated package, each of which may list its constructors.

**Algorithm.**  The files are patched in the order of their names.  A file is patched in
memory with all insertions and written only if it changed, so that a failure leaves the file
at which it arose and all files after it as they were.  A tree has no permissions, so that a
file that was read can be written: the failure of a write is passed on, but no tree gives it.

**Results.**  `patch` gives what became of every insertion in every file, and `unplaced` the
insertions that stand in none.
-/

namespace GormForge
namespace Providers

/-- The directory in which the provider files of a target lie. -/
def directoryOf (target : Path) : Path :=
  match target.parent? with
  | some parent => if parent.text.isEmpty then ⟨"."⟩ else parent
  | none => ⟨"."⟩

/-- The files that may list constructors, by name. -/
def candidates (tree : FileTree) (target : Path) : Except WireError (List Path) :=
  let directory := directoryOf target
  match tree.readDirectory directory with
  | .error e => .error (.readDirectory directory e)
  | .ok entries =>
    let files := entries.filter fun entry => !entry.2.isDirectory
    if files.isEmpty then .error (.noProviderFile directory)
    else .ok (files.map fun entry => directory.child entry.1)

/-- Patch one file. -/
def patchFile (insertions : List Insertion) (path : Path) :
    FileAction WireError (List PatchOutcome) := fun tree =>
  match tree.readText path with
  | .error e => (.error (.read path e), tree)
  | .ok content =>
    match Insertion.patchAll path insertions content with
    | .error e => (.error e, tree)
    | .ok (patched, outcomes) =>
      if patched = content then
        (.ok outcomes, tree)
      else
        match tree.write path (.text patched) with
        | .error e => (.error (.write path e), tree)
        | .ok written => (.ok outcomes, written)

/-- Patch files one after the other. -/
def patchFiles (insertions : List Insertion) : List Path → FileAction WireError (List PatchOutcome)
  | [] => pure []
  | path :: rest => do
    let outcomes ← patchFile insertions path
    let more ← patchFiles insertions rest
    return outcomes ++ more

/-- Patch the files next to a target. -/
def patch (target : Path) (insertions : List Insertion) :
    FileAction WireError (List PatchOutcome) := do
  let files ← FileTree.viewE fun tree => candidates tree target
  patchFiles insertions files

/-- The insertions that found neither their text nor a marker line in any file. -/
def unplaced (insertions : List Insertion) (outcomes : List PatchOutcome) : List Insertion :=
  insertions.filter fun insertion =>
    outcomes.all fun outcome => outcome.text != insertion.text || !outcome.patch.isPlaced

end Providers
end GormForge
