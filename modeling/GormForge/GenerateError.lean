import GormForge.Format.Excerpt
import GormForge.Schema.Error
import GormForge.Wiring.Error

/-!
# Failures of generation

Everything that can keep generated code from its file, with the wording, the diagnostic
code and the advice for each cause.

**Results.**  A failed emission speaks for its first failure and counts the others;
`ofFailures?` leaves out failures that only say that a worker stopped.
-/

namespace GormForge

/-- A generated file that could not be put in its place. -/
structure WriteError where
  path : Path
  cause : IoError
  deriving Repr, DecidableEq

/-- The wording of the failure. -/
def WriteError.message (e : WriteError) : String :=
  s!"failed to write '{e.path.text}'"

/-- A failure of generation. -/
inductive GenerateError where
  | invalidStructName (table name : String)
  | schema (e : SchemaError)
  | template (name : String)
  | templateRead (path : Path)
  | invalidContext (structName reason : String)
  | format (e : FormatError)
  | formatter (program : String) (path : Path) (message : String)
  | write (e : WriteError)
  | createDirectory (path : Path)
  | outputPath (path : Path)
  | emit (first : GenerateError) (others : List GenerateError)
  | wire (e : WireError)
  | cancelled
  deriving Repr, Inhabited

namespace GenerateError

/-- Whether a failure only says that a worker stopped after an earlier one. -/
def isCancelled : GenerateError → Bool
  | cancelled => true
  | _ => false

/-- The failure of an emission, from the failures in the order in which they arrived. -/
def ofFailures? : List GenerateError → Option GenerateError
  | [] => none
  | first :: rest => some (emit first (rest.filter fun e => !e.isCancelled))

/-- The wording of a failure. -/
def message : GenerateError → String
  | invalidStructName table name => s!"invalid struct name '{name}' for table '{table}'"
  | schema e => e.message
  | template name => s!"failed to render template '{name}'"
  | templateRead path => s!"failed to read template '{path.text}'"
  | invalidContext structName reason => s!"cannot render '{structName}': {reason}"
  | format e => e.wording
  | formatter program path message => s!"'{program}' could not format '{path.text}': {message}"
  | write e => e.message
  | createDirectory path => s!"failed to create output directory '{path.text}'"
  | outputPath path => s!"cannot resolve repository package path '{path.text}'"
  | emit first others =>
      if others.isEmpty then message first else s!"{message first} (and {others.length} more)"
  | wire e => e.message
  | cancelled => "cancelled after an earlier failure"

/-- The diagnostic code of a failure. -/
def code : GenerateError → String
  | invalidStructName _ _ => "kun::codegen::invalid_name"
  | schema e => e.code
  | template _ => "kun::codegen::template"
  | templateRead _ => "kun::codegen::template_read"
  | invalidContext _ _ => "kun::codegen::context"
  | format _ => "kun::codegen::format"
  | formatter _ _ _ => "kun::codegen::formatter"
  | write _ => "kun::write"
  | createDirectory _ => "kun::codegen::create_dir"
  | outputPath _ => "kun::codegen::output_path"
  | emit first _ => code first
  | wire e => e.code
  | cancelled => "kun::codegen::cancelled"

/-- The advice that goes with a failure. -/
def help : GenerateError → Option String
  | invalidStructName _ _ =>
      some "struct names may only contain letters, digits and '_' and must start with an upper-case letter"
  | schema e => e.help
  | format e => some e.excerpt
  | formatter _ _ _ =>
      some "install the Go toolchain or set `program = \"none\"` under [format] in kun.toml"
  | emit first _ => help first
  | wire e => e.help
  | _ => none

end GenerateError
end GormForge
