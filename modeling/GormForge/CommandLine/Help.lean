import GormForge.CommandLine.Command

/-!
# Help

The help text of each command: what it does, how it is called, and what it understands.

**Algorithm.**  The entries of a list are padded to the longest one, and their descriptions
follow.  Options are listed by their place among the options of their command; of two at one
place the one whose letter or name comes first.
-/

namespace GormForge
namespace CommandLine
namespace Help

/-- The commands before a command. -/
def before : Command → List Command
  | .program => []
  | .create | .wire => [.program]
  | .scaffold _ | .repository => [.program, .create]

/-- The words that call a command. -/
def path (command : Command) : List String :=
  (before command ++ [command]).map (·.word)

/-- An operand the way it is called. -/
def operandLabel (operand : OperandSpec) : String :=
  if operand.required then "<" ++ operand.name ++ ">" else "[" ++ operand.name ++ "]"

/-- The placeholder for the value of an option. -/
def placeholder (option : OptionSpec) : String :=
  String.ofList (option.long.toList.map fun c => if c == '-' then '_' else c.toUpper)

/-- An option the way it is called. -/
def optionLabel (option : OptionSpec) : String :=
  let short :=
    match option.short with
    | some letter => "-" ++ String.singleton letter ++ ", "
    | none => "    "
  let value := if option.value.isSome then " <" ++ placeholder option ++ ">" else ""
  short ++ "--" ++ option.long ++ value

/-- The description of an operand, with its default. -/
def operandAbout (operand : OperandSpec) : String :=
  match operand.default with
  | some value => operand.about ++ " [default: " ++ value ++ "]"
  | none => operand.about

/-- The letter of an option, or its name. -/
def sortKey (option : OptionSpec) : String :=
  match option.short with
  | some letter => String.singleton letter
  | none => option.long

/-- The options of a command in the order in which they are listed. -/
def listed (command : Command) : List OptionSpec :=
  let placed := (Command.globalOptions.zipIdx ++ command.ownOptions.zipIdx).mergeSort fun a b =>
    a.2 < b.2 || (a.2 == b.2 && sortKey a.1 ≤ sortKey b.1)
  placed.map Prod.fst ++ command.infoOptions

/-- A label padded to a width. -/
def padded (width : Nat) (label : String) : String :=
  label ++ String.ofList (List.replicate (width - label.length) ' ')

/-- A titled list of labels with descriptions; nothing without labels. -/
def listing (title : String) (entries : List (String × String)) : List String :=
  let width := (entries.map fun entry => entry.1.length).foldl max 0
  if entries.isEmpty then []
  else "" :: (title ++ ":") ::
    entries.map fun entry =>
      if entry.2.isEmpty then "  " ++ entry.1
      else "  " ++ padded width entry.1 ++ "  " ++ entry.2

/-- The line that shows how a command is called. -/
def usage (command : Command) : String :=
  let rest :=
    if command.subcommands.isEmpty then command.operands.map operandLabel else ["<COMMAND>"]
  "Usage: " ++ String.intercalate " " (path command ++ "[OPTIONS]" :: rest)

/-- The subcommands of a command with their descriptions. -/
def subcommandEntries (command : Command) : List (String × String) :=
  if command.subcommands.isEmpty then []
  else (command.subcommands.map fun sub => (sub.word, sub.about)) ++
    [("help", "Print this message or the help of the given subcommand(s)")]

/-- The lines of the help text of a command. -/
def lines (command : Command) : List String :=
  [command.about, "", usage command] ++
    listing "Commands" (subcommandEntries command) ++
    listing "Arguments" (command.operands.map fun o => (operandLabel o, operandAbout o)) ++
    listing "Options" ((listed command).map fun o => (optionLabel o, o.about))

end Help
end CommandLine
end GormForge
