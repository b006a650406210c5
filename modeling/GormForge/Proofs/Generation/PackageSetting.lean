import GormForge.Proofs.Generation.Models
import GormForge.Proofs.Generation.Package
import GormForge.Proofs.Model.Validation
import GormForge.Schema.TableSet

/-!
# Accepted package settings

Which of the package settings that a configuration may have name a package.

**Input.**  The text of a configuration that is accepted.

**Algorithm.**  A package setting without a slash of either kind has to be the name of a package.
One with a slash is a path, and is not looked at any further before its last name becomes the name
of the package.

**Results.**
* `GenerationSettings.isPackageName_goPackage_iff`: the package of a run is named by an identifier
  exactly if the last part of its setting that is not idle is one.
* `GenerationJob.validate_eq_packageError_iff`: otherwise all models of the run are refused for
  it.
* `Config.accepted_package`: both for an accepted configuration, whose bare names are identifiers.
-/

namespace GormForge

/-- The last part of a package setting that is not idle is an identifier. -/
def NamesPackage (setting : String) : Prop :=
  ∃ lead name trail,
    setting.toList.splitOn '/' = lead ++ name.toList :: trail ∧
      (∀ segment ∈ trail, Path.isIdle segment = true) ∧ Go.IsIdentifier name

/-! ## Runs -/

namespace GenerationSettings

/-- The package of a run is named by an identifier exactly if its setting ends in one. -/
theorem isPackageName_goPackage_iff
    (settings : GenerationSettings) :
    Go.isPackageName settings.goPackage = true ↔ NamesPackage settings.package := by
  rw [Go.isPackageName_iff]
  constructor
  · intro h
    unfold goPackage at h
    cases hfile : Path.fileName? ⟨settings.package⟩ with
    | none =>
        rw [hfile, Option.getD_none] at h
        have hslash : '/' ∉ settings.package.toList := Go.notMem_of_isWord h.isWord (by decide)
        exact ⟨[], settings.package, [], List.splitOn_eq_singleton hslash, by simp, h⟩
    | some name =>
        rw [hfile, Option.getD_some] at h
        obtain ⟨-, lead, trail, hsegments, htrail⟩ := Path.fileName?_eq_some_iff.mp hfile
        exact ⟨lead, name, trail, hsegments, htrail, h⟩
  · rintro ⟨lead, name, trail, hsegments, htrail, h⟩
    have hname : Path.IsName name := Path.isName_of_isWord h.isWord
    have hfile : Path.fileName? ⟨settings.package⟩ = some name :=
      Path.fileName?_eq_some_iff.mpr ⟨hname, lead, trail, hsegments, htrail⟩
    rw [goPackage, hfile]
    exact h

end GenerationSettings

/-! ## Models -/

namespace RenderContext

variable {context : RenderContext}

/-- The reason why a context is refused for its package. -/
def packageReason (context : RenderContext) : String :=
  s!"'{context.package}' is not a valid package name"

/-- A context of an exported struct is refused for its package exactly if that is no identifier. -/
theorem validate_eq_packageError_iff
    (h : Go.isExportedWord context.structName = true) :
    context.validate = .error (.invalidContext context.structName context.packageReason) ↔
      ¬ Go.isPackageName context.package = true := by
  have hquote : context.packageReason.toList.head? = some '\'' := by
    change ("'" ++ context.package ++ "' is not a valid package name").toList.head? = some '\''
    simp
  unfold validate invalidReason?
  rw [h]
  cases hpackage : Go.isPackageName context.package with
  | false => simp [packageReason]
  | true =>
      -- the reasons that are left begin differently
      simp only [Bool.not_true, Bool.false_eq_true, if_false, not_true_eq_false, iff_false]
      intro heq
      split at heq
      · next reason hreason =>
          have hsame : reason = context.packageReason := by simpa using heq
          rw [← hsame] at hquote
          split at hreason
          · cases hreason
            exact absurd hquote (by decide)
          · obtain ⟨field, -, rfl⟩ := Option.map_eq_some_iff.mp hreason
            change ("field '" ++ field.name ++ "' is not a Go identifier").toList.head? =
              some '\'' at hquote
            simp at hquote
      · cases heq

end RenderContext

namespace GenerationJob

/-- A model of a run is refused for its package exactly if the setting does not end in an
identifier. -/
theorem validate_eq_packageError_iff_setting
    {job : GenerationJob}
    {model : GoStruct}
    (hmodel : model ∈ job.models)
    (project : String) :
    (RenderContext.ofModel model project).validate =
        .error (.invalidContext model.structName
          s!"'{job.settings.goPackage}' is not a valid package name") ↔
      ¬ NamesPackage job.settings.package := by
  have hdraws := draws hmodel
  rw [← job.settings.isPackageName_goPackage_iff, ← hdraws.package]
  exact RenderContext.validate_eq_packageError_iff hdraws.exported

end GenerationJob

/-! ## Configurations -/

namespace Config

variable {content : String}
variable {config : Config}

theorem isUsablePackage_of_parse
    (h : parse content = .ok config) :
    isUsablePackage config.repository.package = true := by
  unfold parse at h
  split at h
  · next found _ =>
      unfold validate at h
      split at h
      · cases h
      · next husable =>
          split at h
          · cases h
          · cases h
            simpa using husable
  · cases h

/-- A bare name in an accepted configuration is the name of the package.  Of all settings that
are accepted, those that end in an identifier can be generated into; for another one, every model
of a run is refused for its package. -/
theorem accepted_package
    (h : parse content = .ok config) :
    (isPathText config.repository.package = false →
      (GenerationSettings.ofRepository config.repository).goPackage = config.repository.package ∧
        NamesPackage config.repository.package) ∧
    (Go.isPackageName (GenerationSettings.ofRepository config.repository).goPackage = true ↔
      NamesPackage config.repository.package) ∧
    ∀ job : GenerationJob, job.settings.package = config.repository.package →
      ∀ model ∈ job.models, ∀ project : String,
        (RenderContext.ofModel model project).validate =
            .error (.invalidContext model.structName
              s!"'{job.settings.goPackage}' is not a valid package name") ↔
          ¬ NamesPackage config.repository.package := by
  have hpackage := (GenerationSettings.ofRepository config.repository).isPackageName_goPackage_iff
  refine ⟨fun hbare => ?_, hpackage, fun job hjob model hmodel project => ?_⟩
  · have husable := isUsablePackage_of_parse h
    rw [isUsablePackage, hbare, Bool.false_or, Bool.and_eq_true] at husable
    have hname : (GenerationSettings.ofRepository config.repository).goPackage =
        config.repository.package :=
      GenerationSettings.goPackage_eq hbare
    refine ⟨hname, hpackage.mp ?_⟩
    rw [hname]
    exact husable.2
  · rw [← hjob]
    exact GenerationJob.validate_eq_packageError_iff_setting hmodel project

/-- The defaults with another package setting. -/
def withPackage (package : String) : Config where
  repository := { package := package }

/-- A run over a table of tags with such a configuration. -/
def tagsJob (package : String) : GenerationJob where
  settings := .ofRepository (withPackage package).repository
  source := TableSet.source { tables := [("tags", ⟨[GoStruct.intColumn "id"], []⟩)] }
  tables := ["tags"]
  workers := 1

/-- A bare name, and a path that ends in no identifier. -/
theorem query_accepted_hyphen_refused :
    (parse "[repo]\npackage = \"query\"\n" = .ok (withPackage "query") ∧
        isPathText "query" = false ∧ NamesPackage "query") ∧
      parse "[repo]\npackage = \"internal/my-db\"\n" = .ok (withPackage "internal/my-db") ∧
      ∃ model ∈ (tagsJob "internal/my-db").models,
        (RenderContext.ofModel model "").validate =
          .error (.invalidContext model.structName "'my-db' is not a valid package name") := by
  have hquery : parse "[repo]\npackage = \"query\"\n" = .ok (withPackage "query") :=
    FileTree.eq_ok_of_toOption (by decide +kernel)
  have hhyphen : parse "[repo]\npackage = \"internal/my-db\"\n" =
      .ok (withPackage "internal/my-db") :=
    FileTree.eq_ok_of_toOption (by decide +kernel)
  have hbare : isPathText "query" = false := by decide
  have hmodels : (tagsJob "internal/my-db").models =
      [GoStruct.ofColumns "tags" "Tag" "my-db" [GoStruct.intColumn "id"] {} {}] := by
    decide +kernel
  refine ⟨⟨hquery, hbare, ((accepted_package hquery).1 hbare).2⟩, hhyphen,
    _, by rw [hmodels]; exact List.mem_singleton_self _, ?_⟩
  have hnot : ¬ NamesPackage "internal/my-db" := fun h =>
    absurd ((accepted_package hhyphen).2.1.mpr h) (by decide +kernel)
  exact ((accepted_package hhyphen).2.2 (tagsJob "internal/my-db") rfl _
    (by rw [hmodels]; exact List.mem_singleton_self _) "").mpr hnot

/-- A path that ends in no identifier is accepted, and its end becomes the name of the package. -/
theorem hyphen_accepted :
    parse "[repo]\npackage = \"internal/my-db\"\n" = .ok (withPackage "internal/my-db") ∧
      (GenerationSettings.ofRepository (withPackage "internal/my-db").repository).goPackage =
        "my-db" ∧
      Go.isPackageName "my-db" = false :=
  ⟨FileTree.eq_ok_of_toOption (by decide +kernel), by decide +kernel, by decide⟩

end Config
end GormForge
