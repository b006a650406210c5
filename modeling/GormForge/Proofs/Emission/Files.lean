import GormForge.Emission.Schedule

/-!
# Files of a model

What preparing and storing one file of a model can come to.

**Results.**  No failure of a file says that a worker stopped, and a stored file is recorded
for its model and its path.
-/

namespace GormForge

/-- What a record of a file tells besides the outcome. -/
def EmittedFile.target (emitted : EmittedFile) : String × String × String × Path :=
  (emitted.table, emitted.package, emitted.structName, emitted.path)

/-- The model and the path that the record of a file has to tell of. -/
def ModelFile.target (directory : Path) (model : GoStruct) (file : ModelFile) :
    String × String × String × Path :=
  (model.tableName, model.packageName, model.structName, file.pathIn directory model)

namespace Emitter

variable {emitter : Emitter}
variable {directory : Path}
variable {model : GoStruct}
variable {file : ModelFile}
variable {tree after : FileTree}
variable {prepared : Option String}
variable {e : GenerateError}

/-! ## Failures -/

theorem isCancelled_of_overrideOf?
    {library : Template.Library}
    {kind : Template.Kind}
    (h : library.overrideOf? tree kind = .error e) :
    e.isCancelled = false := by
  unfold Template.Library.overrideOf? at h
  split at h
  · cases h
  · split at h <;> cases h
    rfl

theorem isCancelled_of_renderWith
    {library : Template.Library}
    {kind : Template.Kind}
    {scope : Template.Scope}
    (h : library.renderWith tree kind scope = .error e) :
    e.isCancelled = false := by
  unfold Template.Library.renderWith at h
  cases hover : library.overrideOf? tree kind with
  | error cause =>
      simp only [hover] at h
      cases h
      exact isCancelled_of_overrideOf? hover
  | ok source =>
      simp only [hover] at h
      split at h <;> cases h
      rfl

theorem isCancelled_of_formatSource
    {formatter : Formatter}
    {path : Path}
    {source : String}
    (h : formatter.formatSource path source = .error e) :
    e.isCancelled = false := by
  unfold Formatter.formatSource at h
  split at h <;> cases h <;> rfl

theorem isCancelled_of_render
    (h : emitter.render directory model file tree = .error e) :
    e.isCancelled = false := by
  simp only [render, RenderContext.validate] at h
  split at h
  · next hvalid =>
      split at hvalid <;> cases hvalid
      cases h
      rfl
  · split at h
    · next hrender =>
        cases h
        exact isCancelled_of_renderWith hrender
    · exact isCancelled_of_formatSource h

/-- Preparing a file fails for a cause of its own. -/
theorem isCancelled_of_prepareFile
    (h : emitter.prepareFile directory model file tree = .error e) :
    e.isCancelled = false := by
  simp only [prepareFile, GeneratedFile.prepare] at h
  split at h
  · cases h
  · cases hrender : emitter.render directory model file tree with
    | ok content => simp [hrender, Except.map] at h
    | error cause =>
        simp only [hrender, Except.map, Except.error.injEq] at h
        exact h ▸ isCancelled_of_render hrender

/-! ## Preparing -/

/-- The queries are prepared on every run. -/
theorem exists_text_of_prepareFile
    {prepared : Option String}
    (h : emitter.prepareFile directory model .queries tree = .ok prepared) :
    ∃ text, prepared = some text := by
  simp only [prepareFile, GeneratedFile.prepare, ModelFile.rules, FileRules.generated,
    reduceCtorEq, false_and, if_false] at h
  cases hrender : emitter.render directory model .queries tree with
  | error e =>
      rw [hrender] at h
      cases h
  | ok content =>
      rw [hrender] at h
      cases h
      exact ⟨_, rfl⟩

/-- A file is rendered only if its model can become Go code. -/
theorem valid_of_render
    {source : String}
    (h : emitter.render directory model file tree = .ok source) :
    Go.isExportedWord model.structName = true ∧ Go.isPackageName model.packageName = true := by
  simp only [render] at h
  split at h
  · cases h
  · next hvalid =>
      unfold RenderContext.validate at hvalid
      split at hvalid
      · cases hvalid
      · next hreason =>
          unfold RenderContext.invalidReason? at hreason
          split at hreason
          · cases hreason
          · next hstruct =>
              split at hreason
              · cases hreason
              · next hpackage =>
                  simp only [RenderContext.ofModel, Bool.not_eq_true', Bool.not_eq_false]
                    at hstruct hpackage
                  exact ⟨hstruct, hpackage⟩

/-- A text is prepared only if the model can become Go code. -/
theorem valid_of_prepareFile_some
    {text : String}
    (h : emitter.prepareFile directory model file tree = .ok (some text)) :
    Go.isExportedWord model.structName = true ∧ Go.isPackageName model.packageName = true := by
  obtain ⟨-, source, hrender, -⟩ := GeneratedFile.prepare_eq_ok_some_iff.mp h
  exact valid_of_render hrender

/-- The queries of a model are prepared only if the model can become Go code. -/
theorem valid_of_prepareFile
    (h : emitter.prepareFile directory model .queries tree = .ok prepared) :
    Go.isExportedWord model.structName = true ∧ Go.isPackageName model.packageName = true := by
  obtain ⟨text, rfl⟩ := exists_text_of_prepareFile h
  exact valid_of_prepareFile_some h

/-! ## Storing -/

theorem storeFile_eq_ok_iff
    {emitted : EmittedFile} :
    storeFile directory model file prepared tree = (.ok emitted, after) ↔
      ∃ result,
        GeneratedFile.store (file.pathIn directory model) prepared tree = (.ok result, after) ∧
          emitted = file.record directory model result := by
  simp only [storeFile, FileTree.bind_eq_ok_iff, FileTree.adapt_eq_ok_iff, FileTree.pure_apply]
  constructor
  · rintro ⟨result, middle, hstore, h⟩
    cases h
    exact ⟨result, hstore, rfl⟩
  · rintro ⟨result, hstore, rfl⟩
    exact ⟨result, after, hstore, rfl⟩

/-- Recording a file leaves the tree alone. -/
theorem snd_storeFile
    (directory : Path)
    (model : GoStruct)
    (file : ModelFile)
    (prepared : Option String)
    (tree : FileTree) :
    (storeFile directory model file prepared tree).2 =
      (GeneratedFile.store (file.pathIn directory model) prepared tree).2 := by
  unfold storeFile
  rcases hstore : GeneratedFile.store (file.pathIn directory model) prepared tree with
    ⟨e | result, after⟩
  · rw [FileTree.bind_error (FileTree.adapt_eq_error_iff.mpr ⟨e, hstore, rfl⟩)]
  · rw [FileTree.bind_ok (FileTree.adapt_eq_ok_iff.mpr hstore), FileTree.pure_apply]

/-- Storing a file fails only because it could not be written. -/
theorem storeFile_error
    (h : storeFile directory model file prepared tree = (.error e, after)) :
    ∃ cause, e = .write cause := by
  rcases hstore : FileTree.adapt GenerateError.write
      (GeneratedFile.store (file.pathIn directory model) prepared) tree with ⟨e' | result, middle⟩
  · obtain ⟨cause, -, rfl⟩ := FileTree.adapt_eq_error_iff.mp hstore
    simp only [storeFile, FileTree.bind_error hstore] at h
    cases h
    exact ⟨cause, rfl⟩
  · simp only [storeFile, FileTree.bind_ok hstore, FileTree.pure_apply] at h
    cases h

theorem storeFile_none
    (directory : Path)
    (model : GoStruct)
    (file : ModelFile)
    (tree : FileTree) :
    storeFile directory model file none tree = (.ok (file.record directory model .skipped), tree) := by
  rw [storeFile_eq_ok_iff]
  exact ⟨.skipped, GeneratedFile.store_none _ _, rfl⟩

/-- A text is stored by making the directories above its file and writing it there. -/
theorem storeFile_some_eq_ok_iff
    {content : String}
    {emitted : EmittedFile} :
    storeFile directory model file (some content) tree = (.ok emitted, after) ↔
      emitted = file.record directory model .written ∧
        ∃ made, GeneratedFile.makeParents (file.pathIn directory model) tree = (.ok (), made) ∧
          made.write (file.pathIn directory model) (.text content) = .ok after := by
  simp only [storeFile_eq_ok_iff, GeneratedFile.store_some_eq_ok_iff,
    GeneratedFile.writeWithParents_eq_ok_iff]
  constructor
  · rintro ⟨result, ⟨rfl, hwrite⟩, rfl⟩
    exact ⟨rfl, hwrite⟩
  · rintro ⟨rfl, hwrite⟩
    exact ⟨.written, ⟨rfl, hwrite⟩, rfl⟩

@[simp] theorem target_record
    (file : ModelFile)
    (directory : Path)
    (model : GoStruct)
    (result : WriteResult) :
    (file.record directory model result).target = file.target directory model := by
  rfl

end Emitter
end GormForge
