import GormForge.Proofs.Emission.Declarations
import GormForge.Proofs.Generation.PackageSetting
import GormForge.Proofs.Wiring.Content

/-!
# Package and directory

The directory of a package has the name of the package.

**Input.**  Settings whose package can be named in a Go file.  The package setting is a bare name,
or a path with any dots, doubled slashes and slashes at its end; the configured directory and the
working directory are any paths.

**Algorithm.**  The directory and the name of the package are found in different ways: a path is
made absolute, or a bare name is put next to the configured directory, while the name is the last
component of the setting.  Neither way changes the last component.

**Results.**
* `exists_outputDirectory`: all settings have an output directory.
* `outputDirectory_namesPackage`: its last component is the package of every file and of every
  provider entry of the run.
-/

namespace GormForge

open Template

/-! ## Directories -/

namespace GenerationSettings

variable {settings : GenerationSettings}

/-- All settings have an output directory. -/
theorem exists_outputDirectory
    (settings : GenerationSettings)
    (cwd : Path) :
    ∃ directory, settings.outputDirectory cwd = .ok directory := by
  unfold outputDirectory
  split
  · next hpath =>
      have hne : settings.package.isEmpty = false := by
        rw [Bool.eq_false_iff]
        intro hempty
        have hnil : settings.package = "" := by simpa using hempty
        rw [hnil] at hpath
        cases hpath
      simp [Path.absolute?, hne]
  · exact ⟨_, rfl⟩

/-- The last component of the output directory is the name of the package. -/
theorem fileName?_of_outputDirectory
    {cwd directory : Path}
    (hpackage : Go.isPackageName settings.goPackage = true)
    (h : settings.outputDirectory cwd = .ok directory) :
    directory.fileName? = some settings.goPackage := by
  have hname : Path.IsName settings.goPackage :=
    Path.isName_of_isWord (Go.isWord_of_isPackageName hpackage)
  obtain ⟨base, rfl | rfl⟩ := exists_base h hpackage
  · exact Path.fileName?_child base hname
  · exact Path.fileName?_child_empty base hname

end GenerationSettings

/-! ## Runs -/

namespace GenerationJob

/-- A run whose package can be named has an output directory.  The last component of this
directory is the name of the package, which is the one that the files of every model declare and
that every provider entry begins with. -/
theorem outputDirectory_namesPackage
    (job : GenerationJob)
    (cwd : Path)
    (hpackage : Go.isPackageName job.settings.goPackage = true) :
    ∃ directory name,
      job.settings.outputDirectory cwd = .ok directory ∧
        directory.fileName? = some name ∧
        name = job.settings.goPackage ∧
        (∀ model ∈ job.models, ∀ (project : String) (file : ModelFile) (text : String),
          renderAll (RenderContext.ofModel model project).scope file.kind.builtin = some text →
            ∃ rest, text.toList = "package ".toList ++ name.toList ++ '\n' :: rest) ∧
        ∀ insertion ∈ job.insertions, ∃ model ∈ job.models,
          insertion.text = "    " ++ name ++ ".New" ++ model.structName ++ "Db," := by
  obtain ⟨directory, hdirectory⟩ := job.settings.exists_outputDirectory cwd
  refine ⟨directory, job.settings.goPackage, hdirectory,
    GenerationSettings.fileName?_of_outputDirectory hpackage hdirectory, rfl, ?_, ?_⟩
  · intro model hmodel project file text hrender
    have hclause := RenderContext.exists_clause file hrender
    rwa [show (RenderContext.ofModel model project).package = job.settings.goPackage from
      (draws hmodel).package] at hclause
  · intro insertion hinsertion
    obtain ⟨model, hmodel, rfl⟩ := List.mem_map.mp hinsertion
    refine ⟨model, hmodel, ?_⟩
    rw [(draws hmodel).package, ← String.toList_inj]
    simp [Insertion.toList_repository]

/-- The package of a path with dots and slashes. -/
theorem winding_namesPackage :
    Go.isPackageName (Config.tagsJob "internal//dal/.././db/./").settings.goPackage = true ∧
      ∃ directory,
        (Config.tagsJob "internal//dal/.././db/./").settings.outputDirectory ⟨"/home/app"⟩ =
            .ok directory ∧
          directory = ⟨"/home/app/internal/dal/../db/"⟩ ∧
          directory.fileName? = some "db" ∧
          ∀ insertion ∈ (Config.tagsJob "internal//dal/.././db/./").insertions,
            insertion.text = "    db.NewTagDb," := by
  have hpackage :
      Go.isPackageName (Config.tagsJob "internal//dal/.././db/./").settings.goPackage = true := by
    decide +kernel
  have hpath :
      (Config.tagsJob "internal//dal/.././db/./").settings.outputDirectory ⟨"/home/app"⟩ =
        .ok ⟨"/home/app/internal/dal/../db/"⟩ :=
    FileTree.eq_ok_of_toOption (by decide +kernel)
  have hgo : (Config.tagsJob "internal//dal/.././db/./").settings.goPackage = "db" := by
    decide +kernel
  have hnames : (Config.tagsJob "internal//dal/.././db/./").models.map (·.structName) =
      ["Tag"] := by
    decide +kernel
  obtain ⟨directory, name, hdirectory, hfile, rfl, -, hentries⟩ :=
    outputDirectory_namesPackage (Config.tagsJob "internal//dal/.././db/./") ⟨"/home/app"⟩ hpackage
  rw [hpath] at hdirectory
  cases hdirectory
  refine ⟨hpackage, _, hpath, rfl, by rw [hfile, hgo], fun insertion hinsertion => ?_⟩
  obtain ⟨model, hmodel, htext⟩ := hentries insertion hinsertion
  have hstruct : model.structName ∈ ["Tag"] := hnames ▸ List.mem_map_of_mem hmodel
  rw [htext, hgo, List.mem_singleton.mp hstruct]
  rfl

end GenerationJob
end GormForge
