import GormForge.FileTree.Action
import GormForge.GenerateError

/-!
# Generated files

Files that a generator puts into a project, and the rules by which it may do so.

**Algorithm.**  A file that is created once stays as it is when it exists, and is not even
rendered.  Otherwise the contents are rendered, the header is put on top unless it stands
there, and directories are made as needed.
-/

namespace GormForge

/-- What to do about a file that exists. -/
inductive Overwrite where
  /-- Write it anew. -/
  | always
  /-- Leave it to its owner. -/
  | ifMissing
  deriving Repr, DecidableEq, Inhabited

/-- How a file may be written. -/
structure FileRules where
  overwrite : Overwrite := .always
  /-- A line to put on top. -/
  header : Option String := none
  deriving Repr, DecidableEq, Inhabited

namespace FileRules

/-- Rules for a file that is written on every run, below a header. -/
def generated (header : String) : FileRules :=
  ⟨.always, some header⟩

/-- Rules for a file that is created once. -/
def createOnce : FileRules :=
  ⟨.ifMissing, none⟩

/-- The contents with the header on top. -/
def withHeader (rules : FileRules) (content : String) : String :=
  match rules.header with
  | some header =>
    if Text.beginsWith header.toList content.toList then content else header ++ "\n" ++ content
  | none => content

end FileRules

/-- What became of a file. -/
inductive WriteResult where
  | written
  | skipped
  deriving Repr, DecidableEq, Inhabited

namespace GeneratedFile

/-- Make the directories above a path. -/
def makeParents (path : Path) : FileAction IoError Unit :=
  match path.parent? with
  | some parent => FileTree.createDirectories parent
  | none => pure ()

/-- Write a text to a file and make the directories above it. -/
def writeWithParents (path : Path) (content : String) : FileAction WriteError Unit :=
  FileTree.adapt (WriteError.mk path) do
    makeParents path
    FileTree.writeText path content

/-- What is to be written to a file: nothing if it is left alone, which is not even
rendered. -/
def prepare {ε : Type} (path : Path) (rules : FileRules) (render : FileTree → Except ε String)
    (tree : FileTree) : Except ε (Option String) :=
  if rules.overwrite = .ifMissing ∧ tree.pathExists path then
    .ok none
  else
    (render tree).map fun content => some (rules.withHeader content)

/-- Write what was prepared for a file. -/
def store (path : Path) : Option String → FileAction WriteError WriteResult
  | none => return .skipped
  | some content => do
    writeWithParents path content
    return .written

/-- What storing comes to when it succeeds. -/
def resultOf : Option String → WriteResult
  | some _ => .written
  | none => .skipped

/-- Put a file in its place. -/
def put {ε : Type} (ofWriteError : WriteError → ε) (path : Path) (rules : FileRules)
    (render : FileTree → Except ε String) : FileAction ε WriteResult := do
  let prepared ← FileTree.viewE (prepare path rules render)
  FileTree.adapt ofWriteError (store path prepared)

section Storing

variable {path : Path}
variable {content : String}
variable {tree after : FileTree}

theorem prepare_eq_ok_none_iff
    {ε : Type}
    {rules : FileRules}
    {render : FileTree → Except ε String} :
    prepare path rules render tree = .ok none ↔
      rules.overwrite = .ifMissing ∧ tree.pathExists path = true := by
  unfold prepare
  split
  · next h => simp [h]
  · next h =>
      simp only [h, iff_false]
      cases render tree <;> simp [Except.map]

theorem prepare_eq_ok_some_iff
    {ε : Type}
    {rules : FileRules}
    {render : FileTree → Except ε String} :
    prepare path rules render tree = .ok (some content) ↔
      ¬ (rules.overwrite = .ifMissing ∧ tree.pathExists path = true) ∧
        ∃ body, render tree = .ok body ∧ content = rules.withHeader body := by
  unfold prepare
  split
  · next h => simp [h]
  · next h =>
      simp only [h, not_false_eq_true, true_and]
      cases render tree <;> simp [Except.map, eq_comm]

theorem writeWithParents_eq_ok_iff :
    writeWithParents path content tree = (.ok (), after) ↔
      ∃ made, makeParents path tree = (.ok (), made) ∧
        made.write path (.text content) = .ok after := by
  simp only [writeWithParents, FileTree.adapt_eq_ok_iff, FileTree.bind_eq_ok_iff]
  constructor
  · rintro ⟨⟨⟩, made, hmade, hwrite⟩
    refine ⟨made, hmade, ?_⟩
    unfold FileTree.writeText at hwrite
    split at hwrite
    · next hok =>
        cases hwrite
        exact hok
    · cases hwrite
  · rintro ⟨made, hmade, hwrite⟩
    exact ⟨(), made, hmade, by simp [FileTree.writeText, hwrite]⟩

theorem store_none
    (path : Path)
    (tree : FileTree) :
    store path none tree = (.ok .skipped, tree) := by
  rfl

theorem store_some_eq_ok_iff
    {result : WriteResult} :
    store path (some content) tree = (.ok result, after) ↔
      result = .written ∧ writeWithParents path content tree = (.ok (), after) := by
  simp only [store, FileTree.bind_eq_ok_iff, FileTree.pure_apply]
  constructor
  · rintro ⟨⟨⟩, middle, hwrite, h⟩
    cases h
    exact ⟨rfl, hwrite⟩
  · rintro ⟨rfl, hwrite⟩
    exact ⟨(), after, hwrite, rfl⟩

end Storing

end GeneratedFile
end GormForge
