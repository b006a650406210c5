import GormForge.CommandLine.Arguments
import GormForge.Generation.TableFilter

/-!
# Invocations

What a command line asks for, in the terms of the library.

**Algorithm.**  A setting given on the command line wins over the configuration; an option
that turns something on or off says nothing when it is left out.

**Results.**  `Invocation.ofArguments?` is the call that arguments stand for, and
`RepositoryRequest.settings` merges its options with the configuration.
-/

namespace GormForge
namespace CommandLine

/-- What scaffolding was asked for. -/
structure ScaffoldRequest where
  target : ScaffoldTarget
  name : ScaffoldName
  templates : Option Path := none
  formatProgram : Option String := none
  noWire : Bool := false
  deriving Repr, DecidableEq

/-- What repositories were asked for. -/
structure RepositoryRequest where
  dsn : String
  tables : TableFilter := .all
  templates : Option Path := none
  formatProgram : Option String := none
  dialect : Option Dialect := none
  out : Option Path := none
  package : Option String := none
  tablePrefix : Option String := none
  nullable : Bool := false
  noNullable : Bool := false
  coverable : Bool := false
  signable : Bool := false
  noIndexTag : Bool := false
  noTypeTag : Bool := false
  noWire : Bool := false
  idCasing : Option IdCasing := none
  deriving Repr, DecidableEq

/-- Where the injector generator was asked to run. -/
inductive WireTarget where
  | all
  | directory (path : Path)
  /-- The only directory that has a wire file. -/
  | single
  deriving Repr, DecidableEq

/-- What a command asks for. -/
inductive Request where
  | scaffold (request : ScaffoldRequest)
  | repository (request : RepositoryRequest)
  | wire (target : WireTarget)
  deriving Repr, DecidableEq

/-- A call of the program. -/
structure Invocation where
  /-- The configuration file. -/
  config : Path := ⟨"kun.toml"⟩
  request : Request
  deriving Repr, DecidableEq

/-- The settings of the configuration with those of the command line on top. -/
def RepositoryRequest.settings (request : RepositoryRequest) (base : RepositorySettings) :
    RepositorySettings where
  out := request.out.getD base.out
  package := request.package.getD base.package
  tablePrefix := request.tablePrefix.getD base.tablePrefix
  nullable := (base.nullable || request.nullable) && !request.noNullable
  coverable := base.coverable || request.coverable
  signable := base.signable || request.signable
  indexTag := base.indexTag && !request.noIndexTag
  typeTag := base.typeTag && !request.noTypeTag
  wire := base.wire && !request.noWire
  idCasing := request.idCasing.getD base.idCasing

namespace Arguments

/-- An operand, or the value that stands for it when it is left out. -/
def operand? (arguments : Arguments) (index : Nat) : Option String :=
  match arguments.operands[index]? with
  | some value => some value
  | none => arguments.command.operands[index]?.bind (·.default)

/-- The path that is the value of an option. -/
def path? (arguments : Arguments) (name : String) : Option Path :=
  (arguments.value? name).map Path.mk

/-- The scaffolding that arguments ask for. -/
def scaffoldRequest? (arguments : Arguments) (target : ScaffoldTarget) :
    Option ScaffoldRequest :=
  ((arguments.operand? 0).bind ScaffoldName.parse?).map fun name =>
    { target := target
      name := name
      templates := arguments.path? "tpl-path"
      formatProgram := arguments.value? "format"
      noWire := arguments.has "no-wire" }

/-- The repositories that arguments ask for. -/
def repositoryRequest? (arguments : Arguments) : Option RepositoryRequest :=
  (arguments.operand? 0).map fun dsn =>
    { dsn := dsn
      tables := TableFilter.ofText ((arguments.operand? 1).getD "")
      templates := arguments.path? "tpl-path"
      formatProgram := arguments.value? "format"
      dialect := (arguments.value? "dialect").bind Dialect.ofName?
      out := arguments.path? "out"
      package := arguments.value? "package"
      tablePrefix := arguments.value? "prefix"
      nullable := arguments.has "nullable"
      noNullable := arguments.has "no-nullable"
      coverable := arguments.has "coverable"
      signable := arguments.has "signable"
      noIndexTag := arguments.has "no-index-tag"
      noTypeTag := arguments.has "no-type-tag"
      noWire := arguments.has "no-wire"
      idCasing := (arguments.value? "id-casing").bind IdCasing.ofName? }

/-- The directories that arguments name. -/
def wireTarget (arguments : Arguments) : WireTarget :=
  match arguments.operand? 0 with
  | some "all" => .all
  | some directory => .directory ⟨directory⟩
  | none => .single

/-- What arguments ask for. -/
def request? (arguments : Arguments) : Option Request :=
  match arguments.command with
  | .scaffold target => (arguments.scaffoldRequest? target).map .scaffold
  | .repository => arguments.repositoryRequest?.map .repository
  | .wire => some (.wire arguments.wireTarget)
  | _ => none

end Arguments

namespace Invocation

/-- The call that arguments stand for. -/
def ofArguments? (arguments : Arguments) : Option Invocation :=
  arguments.request?.map fun request =>
    { config := ⟨(arguments.globalValue? "config").getD "kun.toml"⟩, request := request }

/-- The call that a command line stands for. -/
def parse (line : List String) : Except Stop Invocation :=
  match Arguments.parse line with
  | .error stop => .error stop
  | .ok arguments =>
    match ofArguments? arguments with
    | some invocation => .ok invocation
    | none => .error (.misuse (.missingSubcommand arguments.command.word))

end Invocation
end CommandLine
end GormForge
