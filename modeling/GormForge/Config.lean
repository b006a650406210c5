import GormForge.FileTree.Basic
import GormForge.Go.Identifier
import GormForge.Naming.IdCasing
import GormForge.Toml.Document

/-!
# Configuration

The settings of a project, read from its optional `kun.toml`.

**Algorithm.**  A section is a table of settings, or an array of their values in the order
in which they are declared here; what is not set keeps its default, and a setting that
does not exist or has a value of another type is refused.  A configuration that can be
read is then checked, the package first.

**Results.**  `parse` reads a text, `load` a file; a file that does not exist stands for the
defaults.
-/

namespace GormForge

/-- Settings of generated repositories. -/
structure RepositorySettings where
  out : Path := ⟨"./internal/repository/db"⟩
  package : String := "db"
  tablePrefix : String := ""
  nullable : Bool := true
  coverable : Bool := false
  signable : Bool := false
  indexTag : Bool := true
  typeTag : Bool := true
  wire : Bool := true
  idCasing : IdCasing := .legacy
  deriving Repr, DecidableEq, Inhabited

/-- The settings of a project. -/
structure Config where
  /-- The directory whose files stand in for the built-in templates. -/
  templates : Option Path := none
  /-- The name of the formatter, `none` for no formatter. -/
  formatProgram : String := "gofmt"
  repository : RepositorySettings := {}
  deriving Repr, DecidableEq, Inhabited

/-- Why a configuration cannot be used. -/
inductive ConfigError where
  | io (path : Path) (cause : IoError)
  | parse
  | validation (message : String) (span : Option (Nat × Nat))
  deriving Repr, DecidableEq

namespace ConfigError

/-- The wording of an error. -/
def message : ConfigError → String
  | io path _ => s!"failed to read '{path.text}'"
  | parse => "failed to parse kun.toml"
  | validation message _ => message

/-- The diagnostic code of an error. -/
def code : ConfigError → String
  | io _ _ => "kun::config::io"
  | parse => "kun::config::parse"
  | validation _ _ => "kun::config::invalid"

end ConfigError

namespace Config

/-! ## Sections -/

/-- Read a section whose settings, in order, are `names`; `assign` enters one of them. -/
def readSection {σ : Type} (names : List String) (assign : σ → String → Toml.Value → Option σ)
    (initial : σ) : Toml.Value → Option σ
  | .table entries =>
      entries.foldlM (fun settings entry => assign settings entry.1 entry.2) initial
  | .array items =>
      (names.zip items).foldlM (fun settings entry => assign settings entry.1 entry.2) initial
  | _ => none

/-- A rule for `ID`: its name, or a table whose only entry has that name and no contents. -/
def idCasingOf? : Toml.Value → Option IdCasing
  | .string s => IdCasing.ofExactName? s
  | .table [(name, contents)] => if contents.isEmpty then IdCasing.ofExactName? name else none
  | _ => none

/-- The settings of the repository section, in order. -/
def repositoryNames : List String := [
    "out", "package", "prefix", "nullable", "coverable", "signable", "index_tag", "type_tag",
    "wire", "id_casing"
  ]

/-- Enter one setting of the repository section. -/
def assignRepository (settings : RepositorySettings) (name : String) (value : Toml.Value) :
    Option RepositorySettings :=
  match name with
  | "out" => value.asString?.map fun s => { settings with out := ⟨s⟩ }
  | "package" => value.asString?.map fun s => { settings with package := s }
  | "prefix" => value.asString?.map fun s => { settings with tablePrefix := s }
  | "nullable" => value.asBoolean?.map fun b => { settings with nullable := b }
  | "coverable" => value.asBoolean?.map fun b => { settings with coverable := b }
  | "signable" => value.asBoolean?.map fun b => { settings with signable := b }
  | "index_tag" => value.asBoolean?.map fun b => { settings with indexTag := b }
  | "type_tag" => value.asBoolean?.map fun b => { settings with typeTag := b }
  | "wire" => value.asBoolean?.map fun b => { settings with wire := b }
  | "id_casing" => (idCasingOf? value).map fun c => { settings with idCasing := c }
  | _ => none

/-- Enter the setting of the format section. -/
def assignFormat (_ : String) (name : String) (value : Toml.Value) : Option String :=
  if name = "program" then value.asString? else none

/-- Enter the setting of the templates section. -/
def assignTemplates (_ : Option Path) (name : String) (value : Toml.Value) :
    Option (Option Path) :=
  if name = "path" then value.asString?.map fun s => some ⟨s⟩ else none

/-- Read the templates section; an array has to hold its setting. -/
def readTemplates : Toml.Value → Option (Option Path)
  | .array [] => none
  | value => readSection ["path"] assignTemplates none value

/-- Enter one section. -/
def assign (config : Config) (name : String) (value : Toml.Value) : Option Config :=
  match name with
  | "templates" => (readTemplates value).map fun path => { config with templates := path }
  | "format" =>
      (readSection ["program"] assignFormat config.formatProgram value).map fun program =>
        { config with formatProgram := program }
  | "repo" =>
      (readSection repositoryNames assignRepository config.repository value).map fun settings =>
        { config with repository := settings }
  | _ => none

/-! ## Checks -/

/-- Whether a text holds a slash of either kind and thus is a path. -/
def isPathText (s : String) : Bool :=
  s.toList.any fun c => c == '/' || c == '\\'

/-- The formatters that can be named. -/
def formatPrograms : List String := ["gofmt", "goimports", "none"]

/-- The first occurrence of a word in a text. -/
def spanOfWord? (content word : String) : Option (Nat × Nat) :=
  (Text.byteOffset? word.toList content.toList).map fun offset =>
    (offset, Text.byteLength word.toList)

/-- Whether a package setting is a package name or a path. -/
def isUsablePackage (package : String) : Bool :=
  !package.isEmpty && (isPathText package || Go.isPackageName package)

/-- Check a configuration that was read from a text. -/
def validate (config : Config) (content : String) : Except ConfigError Config :=
  if !isUsablePackage config.repository.package then
    .error (.validation s!"'{config.repository.package}' is not a valid Go package name"
      (spanOfWord? content "package"))
  else if !formatPrograms.contains config.formatProgram then
    .error (.validation
      s!"unknown formatter '{config.formatProgram}', expected gofmt, goimports or none"
      (spanOfWord? content "program"))
  else
    .ok config

/-! ## Reading -/

/-- Read a configuration. -/
def parse (content : String) : Except ConfigError Config :=
  match (Toml.parse? content).bind fun entries => readSection [] assign {} (.table entries) with
  | some config => config.validate content
  | none => .error .parse

/-- Read the configuration file of a project. -/
def load (tree : FileTree) (path : Path) : Except ConfigError Config :=
  match tree.readText path with
  | .ok content => parse content
  | .error .notFound => .ok {}
  | .error cause => .error (.io path cause)

end Config
end GormForge
