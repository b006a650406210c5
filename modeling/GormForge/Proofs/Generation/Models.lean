import GormForge.Generation.Schedule
import GormForge.Proofs.Emission.Names
import GormForge.Proofs.Naming.Structs
import Mathlib.Data.List.ProdSigma

/-!
# Collected models

What the models of a generation run have in common, and that their files have different names.

**Results.**
* `GenerationJob.draws`: every model belongs to a table and is named after it.
* `Generation.Collects.eq_of_nameFor_eq`: different files of the models have different names.
-/

namespace GormForge

variable {settings : GenerationSettings}
variable {source : SchemaSource}

/-- A model that belongs to a table. -/
structure GenerationSettings.Draws (settings : GenerationSettings) (model : GoStruct) : Prop where
  table : ∃ table, model.structName = settings.naming.structName table
  exported : Go.isExportedWord model.structName = true
  fileName : model.fileName = Text.lowerFirst model.structName
  package : model.packageName = settings.goPackage

theorem GenerationSettings.Draws.noSlash_fileName
    {model : GoStruct}
    (h : settings.Draws model) :
    '/' ∉ model.fileName.toList := by
  rw [h.fileName]
  exact Text.notMem_lowerFirst Text.isMark_slash
    (Go.notMem_of_isWord (Go.isWord_of_isExportedWord h.exported) (by decide))

theorem GenerationSettings.Draws.noUnderscore_fileName
    {model : GoStruct}
    (h : settings.Draws model) :
    '_' ∉ model.fileName.toList := by
  obtain ⟨table, htable⟩ := h.table
  rw [h.fileName, htable]
  exact Text.notMem_lowerFirst Text.isMark_underscore
    (NamingConvention.noUnderscore_structName _ table)

theorem GoStruct.draws_ofColumns
    {table : String}
    (columns : List Column)
    (h : Go.isExportedWord (settings.naming.structName table) = true) :
    settings.Draws (ofColumns table (settings.naming.structName table) settings.goPackage columns
        settings.naming settings.fields) ∧
      (ofColumns table (settings.naming.structName table) settings.goPackage columns
        settings.naming settings.fields).structName = settings.naming.structName table := by
  unfold ofColumns
  exact ⟨⟨⟨table, rfl⟩, h, rfl, rfl⟩, rfl⟩

/-- The model of a table is named after it. -/
theorem GoStruct.draws_build
    {table : String}
    {built : GoStruct.Built}
    {model : GoStruct}
    (h : GoStruct.build source settings.naming settings.fields settings.goPackage table
      (settings.naming.structName table) = .ok built)
    (hmodel : built.model = some model) :
    settings.Draws model ∧ model.structName = settings.naming.structName table := by
  obtain ⟨hexported, found, -, rfl⟩ := eq_of_build h hmodel
  exact draws_ofColumns found.columns hexported

namespace Generation

variable {state : Generation}

/-- The models are kept under their names, and each belongs to a table. -/
structure Collects (settings : GenerationSettings) (state : Generation) : Prop where
  nodup : (Keyed.keys state.models).Nodup
  entry : ∀ entry ∈ state.models, entry.1 = entry.2.structName ∧ settings.Draws entry.2
  /-- Nothing is emitted or wired while models are collected. -/
  files : state.report.files = []
  wiring : state.report.wiring = []

theorem collects_nil :
    Collects settings {} where
  nodup := List.nodup_nil
  entry := by simp
  files := rfl
  wiring := rfl

theorem Collects.addTable
    (h : Collects settings state)
    (source : SchemaSource)
    (table : String) :
    Collects settings (addTable settings source state table).2 := by
  unfold Generation.addTable
  simp only
  split
  · exact h
  · next built hbuilt =>
      split
      · exact ⟨h.nodup, h.entry, h.files, h.wiring⟩
      · next model hmodel =>
          obtain ⟨hdraws, hname⟩ := GoStruct.draws_build hbuilt hmodel
          refine ⟨Keyed.nodup_keys_put _ _ h.nodup, fun entry hentry => ?_, h.files, h.wiring⟩
          rcases Keyed.mem_of_mem_put hentry with rfl | hentry
          · exact ⟨hname.symm, hdraws⟩
          · exact h.entry entry hentry

theorem Collects.recordTable
    (h : Collects settings state)
    (source : SchemaSource)
    (table : String) :
    Collects settings (recordTable settings source state table) := by
  have hnext := h.addTable source table
  unfold Generation.recordTable
  split
  · next hok => rwa [hok] at hnext
  · next hfail =>
      rw [hfail] at hnext
      exact ⟨hnext.nodup, hnext.entry, hnext.files, hnext.wiring⟩

theorem collects_addTables
    (settings : GenerationSettings)
    (source : SchemaSource)
    (tables : List String)
    (h : Collects settings state) :
    Collects settings (addTables settings source state tables) := by
  unfold addTables
  induction tables generalizing state with
  | nil => exact h
  | cons table rest ih =>
      rw [List.foldl_cons]
      exact ih (h.recordTable source table)

/-! ## Names of files -/

section Names

variable {model other : GoStruct}

theorem Collects.draws
    (h : Collects settings state)
    (hmodel : model ∈ state.models.map Prod.snd) :
    settings.Draws model := by
  obtain ⟨entry, hentry, rfl⟩ := List.mem_map.mp hmodel
  exact (h.entry entry hentry).2

theorem Collects.nodup_structNames
    (h : Collects settings state) :
    ((state.models.map Prod.snd).map (·.structName)).Nodup := by
  have hkeys : (state.models.map Prod.snd).map (·.structName) = Keyed.keys state.models := by
    unfold Keyed.keys
    rw [List.map_map]
    exact List.map_congr_left fun entry hentry => (h.entry entry hentry).1.symm
  rw [hkeys]
  exact h.nodup

/-- Different files of the models have different names. -/
theorem Collects.eq_of_nameFor_eq
    {file file' : ModelFile}
    (h : Collects settings state)
    (hmodel : model ∈ state.models.map Prod.snd)
    (hother : other ∈ state.models.map Prod.snd)
    (heq : file.nameFor model = file'.nameFor other) :
    model = other ∧ file = file' := by
  have hdiff : ∀ {model other : GoStruct}, other ∈ state.models.map Prod.snd →
      ModelFile.queries.nameFor model ≠ ModelFile.custom.nameFor other := by
    intro model other hother heq
    have hlists := congrArg String.toList heq
    simp only [ModelFile.nameFor, String.toList_append] at hlists
    have hfront : model.fileName.toList ++ "_gen".toList = other.fileName.toList := by
      refine List.append_cancel_right (?_ : _ ++ ".go".toList = _ ++ ".go".toList)
      rw [← hlists]
      simp
    exact (h.draws hother).noUnderscore_fileName (by rw [← hfront]; simp)
  have hsame : model.fileName = other.fileName → model = other := by
    intro heq
    rw [(h.draws hmodel).fileName, (h.draws hother).fileName] at heq
    exact List.inj_on_of_nodup_map h.nodup_structNames hmodel hother
      (Go.lowerFirst_injective (h.draws hmodel).exported (h.draws hother).exported heq)
  cases file <;> cases file'
  · exact ⟨hsame (by simpa [ModelFile.nameFor] using heq), rfl⟩
  · exact absurd heq (hdiff hother)
  · exact absurd heq.symm (hdiff hmodel)
  · exact ⟨hsame (by simpa [ModelFile.nameFor] using heq), rfl⟩

theorem Collects.nodup_names
    (h : Collects settings state) :
    ((state.models.map Prod.snd).flatMap ModelFile.namesOf).Nodup := by
  have hmodels : (state.models.map Prod.snd).Nodup := h.nodup_structNames.of_map
  have hnames : (state.models.map Prod.snd).flatMap ModelFile.namesOf =
      ((state.models.map Prod.snd).product ModelFile.all).map
        fun entry => entry.2.nameFor entry.1 := by
    unfold ModelFile.namesOf List.product
    rw [List.map_flatMap]
    simp only [List.map_map]
    rfl
  rw [hnames]
  refine List.Nodup.map_on ?_ (hmodels.product (by decide))
  rintro ⟨model, file⟩ hmodel ⟨other, file'⟩ hother heq
  obtain ⟨rfl, rfl⟩ := h.eq_of_nameFor_eq (List.mem_product.mp hmodel).1
    (List.mem_product.mp hother).1 heq
  rfl

end Names

end Generation

/-! ## Jobs -/

namespace GenerationJob

variable {job : GenerationJob}
variable {model : GoStruct}

theorem collects
    (job : GenerationJob) :
    Generation.Collects job.settings job.collected :=
  Generation.collects_addTables _ _ _ Generation.collects_nil

theorem draws
    (h : model ∈ job.models) :
    job.settings.Draws model :=
  job.collects.draws h

theorem nodup_structNames
    (job : GenerationJob) :
    (job.models.map (·.structName)).Nodup :=
  job.collects.nodup_structNames

theorem noSlash_fileName
    (h : model ∈ job.models) :
    '/' ∉ model.fileName.toList :=
  (draws h).noSlash_fileName

theorem nodup_names
    (job : GenerationJob)
    (directory : Path) :
    (job.emission directory).names.Nodup :=
  job.collects.nodup_names

end GenerationJob
end GormForge
