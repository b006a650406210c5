import GormForge.Config
import GormForge.Model.Field
import GormForge.Template.Library

/-!
# Generation settings

How repositories are generated and where they go.

**Results.**  `outputDirectory` and `goPackage` both come from the package setting: a path is
taken as it is and names its last part, a bare name lies next to the configured directory.
-/

namespace GormForge

/-- The settings of a generation run. -/
structure GenerationSettings where
  out : Path := ⟨"./internal/repository/db"⟩
  /-- A package name, or the path of a package directory. -/
  package : String := "db"
  fields : FieldOptions := {}
  naming : NamingConvention := {}
  library : Template.Library := .builtin
  /-- Whether constructors are entered into the provider files. -/
  wire : Bool := true
  /-- The path of the project's Go module. -/
  project : String := ""

namespace GenerationSettings

/-- The settings that a configuration asks for. -/
def ofRepository (settings : RepositorySettings) : GenerationSettings where
  out := settings.out
  package := settings.package
  fields :=
    { nullable := settings.nullable
      coverable := settings.coverable
      signable := settings.signable
      indexTag := settings.indexTag
      typeTag := settings.typeTag
      idCasing := settings.idCasing }
  naming := { tablePrefix := settings.tablePrefix }
  wire := settings.wire

/-- The directory of the package. -/
def outputDirectory (settings : GenerationSettings) (cwd : Path) : Except GenerateError Path :=
  if Config.isPathText settings.package then
    match Path.absolute? cwd ⟨settings.package⟩ with
    | some path => .ok path
    | none => .error (.outputPath ⟨settings.package⟩)
  else
    .ok ((settings.out.parent?.getD ⟨""⟩).child settings.package)

/-- The package that generated files declare. -/
def goPackage (settings : GenerationSettings) : String :=
  (Path.fileName? ⟨settings.package⟩).getD settings.package

end GenerationSettings
end GormForge
