import GormForge.Format.Diagnostic
import GormForge.GenerateError
import GormForge.Text.Utf8

/-!
# Formatters

What generated code goes through before it is written.

**Algorithm.**  An external tool is a function from its arguments and its input to what it
writes and whether it succeeds.  A tool that sorts imports is told the directory of the file.

**Results.**  `formatSource` turns the failure of a formatter into a failure of generation:
a position in the source where the tool gave one, the tool's own words otherwise.
-/

namespace GormForge

/-- Why a formatter did not take a source. -/
inductive FormatFailure where
  /-- The source is at fault. -/
  | rejected (line column : Nat) (message : String)
  /-- The formatter is at fault. -/
  | tool (message : String)
  deriving Repr, DecidableEq

/-- A formatter for generated code. -/
structure Formatter where
  name : String
  /-- Format a source that is meant for a file. -/
  format : Path → String → Except FormatFailure String

namespace Formatter

/-- Leave the source as it is. -/
def passthrough : Formatter :=
  ⟨"none", fun _ source => .ok source⟩

/-! ## External tools -/

/-- What a tool did. -/
structure ToolOutput where
  success : Bool := true
  output : List UInt8 := []
  errorOutput : List UInt8 := []
  deriving Repr, DecidableEq

/-- A tool as a function of its arguments and its input. -/
abbrev Tool := List String → String → ToolOutput

/-- The arguments that a tool gets for a file. -/
def toolArguments (program : String) (path : Path) : List String :=
  if Text.endsWith "goimports".toList program.toList then
    match path.parent? with
    | some parent => if parent.text.isEmpty then [] else ["-srcdir", parent.text]
    | none => []
  else
    []

/-- The failure that the error output of a tool tells of. -/
def failureOf (errorOutput : List UInt8) : FormatFailure :=
  let text := Text.decodeLossy errorOutput
  match Format.firstDiagnostic? text with
  | some found => .rejected found.line found.column found.message
  | none => .tool (String.ofList (Text.trimChars text.toList))

/-- What a tool made of a source. -/
def resultOf (done : ToolOutput) : Except FormatFailure String :=
  if done.success then
    match Text.decode done.output with
    | .ok text => .ok text
    | .error e => .error (.tool e.message)
  else
    .error (failureOf done.errorOutput)

/-- The formatter of a tool, which may be missing. -/
def ofTool (program : String) (tool : Option Tool) : Formatter where
  name := program
  format path source :=
    match tool with
    | some run => resultOf (run (toolArguments program path) source)
    | none => .error (.tool IoError.notFound.message)

/-! ## Formatting -/

/-- Format a source that is meant for a file. -/
def formatSource (formatter : Formatter) (path : Path) (source : String) :
    Except GenerateError String :=
  match formatter.format path source with
  | .ok text => .ok text
  | .error (.rejected line column message) =>
      .error (.format (FormatError.ofPosition path source line column message))
  | .error (.tool message) => .error (.formatter formatter.name path message)

end Formatter
end GormForge
