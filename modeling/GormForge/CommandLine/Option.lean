import GormForge.Naming.IdCasing
import GormForge.Scaffold.Name
import GormForge.Schema.Dialect
import GormForge.Text.Digit

/-!
# Options and operands

What a command understands on the command line, and which values it takes.

**Results.**  `ValueKind.accepts` says which texts are values of a kind.
-/

namespace GormForge
namespace CommandLine

/-- What a value has to be. -/
inductive ValueKind where
  | text
  /-- A path, which is not empty. -/
  | path
  /-- A machine word in ASCII digits, after an optional plus sign. -/
  | count
  | dialect
  | idCasing
  | scaffoldName
  /-- One of these texts. -/
  | oneOf (texts : List String)
  deriving Repr, DecidableEq

namespace ValueKind

/-- The number that a text writes. -/
def countOf? (s : String) : Option Nat :=
  match s.toList with
  | '+' :: digits => Text.wordOfAscii? digits
  | digits => Text.wordOfAscii? digits

/-- Whether a text is a value of a kind. -/
def accepts : ValueKind → String → Bool
  | text, _ => true
  | path, s => !s.isEmpty
  | count, s => (countOf? s).isSome
  | dialect, s => (Dialect.ofName? s).isSome
  | idCasing, s => (IdCasing.ofName? s).isSome
  | scaffoldName, s => (ScaffoldName.parse? s).isSome
  | oneOf texts, s => texts.contains s

end ValueKind

/-- An option of a command. -/
structure OptionSpec where
  /-- The name after two dashes. -/
  long : String
  /-- The letter after one dash. -/
  short : Option Char := none
  /-- What the value has to be; none for an option without a value. -/
  value : Option ValueKind := none
  /-- The option that this one puts out of force. -/
  overrides : Option String := none
  about : String := ""
  deriving Repr, DecidableEq

/-- An argument without a name. -/
structure OperandSpec where
  name : String
  value : ValueKind := .text
  required : Bool := true
  /-- The value of an operand that is left out. -/
  default : Option String := none
  about : String := ""
  deriving Repr, DecidableEq

namespace OptionSpec

/-- The option that prints help. -/
def help : OptionSpec :=
  { long := "help", short := some 'h', about := "Print help" }

/-- The option that prints the version. -/
def version : OptionSpec :=
  { long := "version", short := some 'V', about := "Print version" }

/-- The option with a long name. -/
def withLong? (name : String) (options : List OptionSpec) : Option OptionSpec :=
  options.find? fun option => option.long == name

/-- The option with a letter. -/
def withShort? (letter : Char) (options : List OptionSpec) : Option OptionSpec :=
  options.find? fun option => option.short == some letter

end OptionSpec
end CommandLine
end GormForge
