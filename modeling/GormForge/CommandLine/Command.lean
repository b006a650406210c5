import GormForge.CommandLine.Option
import GormForge.Config
import GormForge.Scaffold.Kind

/-!
# Commands

The commands of the program, with the options and operands of each.

**Results.**  A command either has subcommands, one of which has to be chosen, or operands.
-/

namespace GormForge
namespace CommandLine

/-- What a scaffolding command creates. -/
inductive ScaffoldTarget where
  | one (kind : ScaffoldKind)
  /-- A controller and its service. -/
  | both
  deriving Repr, DecidableEq

namespace ScaffoldTarget

/-- The kinds of files to create, in order. -/
def kinds : ScaffoldTarget → List ScaffoldKind
  | one kind => [kind]
  | both => [.controller, .service]

/-- The word for a target on the command line. -/
def word : ScaffoldTarget → String
  | one .controller => "ctl"
  | one .service => "svc"
  | one .router => "router"
  | one .cache => "cache"
  | both => "all"

/-- What a target is. -/
def about : ScaffoldTarget → String
  | one .cache => "Create a new cache repository"
  | one kind => "Create a new " ++ kind.name
  | both => "Create a new controller & service"

end ScaffoldTarget

/-- A command. -/
inductive Command where
  /-- The program itself. -/
  | program
  | create
  | scaffold (target : ScaffoldTarget)
  | repository
  | wire
  deriving Repr, DecidableEq

namespace Command

/-- The word for a command. -/
def word : Command → String
  | program => "kun"
  | create => "create"
  | scaffold target => target.word
  | repository => "repo"
  | wire => "wire"

/-- What a command does. -/
def about : Command → String
  | program => "Scaffold Go backend code and generate GORM repositories"
  | create => "Create a controller, service, router, cache or database repositories"
  | scaffold target => target.about
  | repository => "Generate GORM repositories from database tables"
  | wire => "Run `wire` in the directory holding wire.go"

/-- The commands among which a command has to be followed by one. -/
def subcommands : Command → List Command
  | program => [create, wire]
  | create =>
      [scaffold (.one .controller), scaffold (.one .service), scaffold (.one .router),
        scaffold (.one .cache), scaffold .both, repository]
  | _ => []

/-! ## Options -/

/-- The options that every command understands. -/
def globalOptions : List OptionSpec := [
    { long := "config", short := some 'c', value := some .path
      about := "Path to kun.toml; a missing file means defaults [default: kun.toml]" },
    { long := "verbose", short := some 'v', about := "Show debug logs" }
  ]

/-- The option for templates. -/
def templatesOption : OptionSpec :=
  { long := "tpl-path", short := some 't', value := some .path
    about := "Directory with template overrides" }

/-- The option that leaves provider files alone. -/
def noWireOption (about : String) : OptionSpec :=
  { long := "no-wire", about := about }

/-- The option for the formatter. -/
def formatOption (about : String) : OptionSpec :=
  { long := "format", value := some (.oneOf Config.formatPrograms)
    about := about ++ " [possible values: gofmt, goimports, none]" }

/-- The options of a command that creates scaffolds. -/
def scaffoldOptions : List OptionSpec := [
    templatesOption,
    noWireOption "Do not register the constructor in the provider set",
    formatOption "Formatter for the created file"
  ]

/-- The options of the command that generates repositories. -/
def repositoryOptions : List OptionSpec := [
    templatesOption,
    { long := "dialect", value := some .dialect
      about := "Database kind, when it cannot be told from the DSN" },
    { long := "out", short := some 'o', value := some .path
      about := "Repository output directory" },
    { long := "package", short := some 'p', value := some .text
      about := "Package name or package directory" },
    { long := "prefix", value := some .text, about := "Table prefix left out of model names" },
    { long := "nullable", overrides := some "no-nullable"
      about := "Pointer fields for nullable columns" },
    { long := "no-nullable", overrides := some "nullable" },
    { long := "coverable", about := "Pointer fields for columns with a default value" },
    { long := "signable", about := "Unsigned Go types for unsigned columns" },
    { long := "no-index-tag", about := "Leave index clauses out of gorm tags" },
    { long := "no-type-tag", about := "Leave column types out of gorm tags" },
    noWireOption "Do not register constructors in the DI file",
    { long := "id-casing", value := some .idCasing
      about := "How `ID` in field names becomes `Id`" },
    formatOption "Formatter for generated files",
    { long := "jobs", short := some 'j', value := some .count
      about := "Tables written at once (defaults to available parallelism)" }
  ]

/-- The options that only a command itself understands. -/
def ownOptions : Command → List OptionSpec
  | scaffold _ => scaffoldOptions
  | repository => repositoryOptions
  | _ => []

/-- The options that print something about a command. -/
def infoOptions : Command → List OptionSpec
  | program => [.help, .version]
  | _ => [.help]

/-- The options that a command understands. -/
def options (command : Command) : List OptionSpec :=
  globalOptions ++ command.ownOptions ++ command.infoOptions

/-- The operands of a command. -/
def operands : Command → List OperandSpec
  | scaffold _ =>
      [{ name := "NAME", value := .scaffoldName
         about := "Name, optionally inside a directory (e.g. `admin/user`)" }]
  | repository =>
      [{ name := "DSN"
         about := "Data source, e.g. \"user:pass@tcp(127.0.0.1:3306)/shop\" or \"postgres://...\"" },
       { name := "TABLES", required := false, default := some "*"
         about := "`*` for every table, or a comma separated list" }]
  | wire =>
      [{ name := "DIR", required := false
         about := "Directory holding wire.go, or `all` for every one found" }]
  | _ => []

end Command
end CommandLine
end GormForge
