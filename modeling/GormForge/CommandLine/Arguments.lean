import GormForge.CommandLine.Command
import GormForge.Keyed

/-!
# Arguments

A command line taken apart into the command it calls, its options and its operands.

**Input.**  The arguments after the name of the program.

**Algorithm.**  Arguments are read from left to right.  The value of an option stands in the
same argument or in the next one, where it does not begin with a dash; letters may share a
dash; after two dashes everything is an operand.  An option is given once, unless another
one put it out of force in between.  Options that all commands understand also hold for the
subcommands after them, which may give them anew.

**Results.**  `Arguments.parse` gives the arguments, or says why reading stopped: a misuse,
or the wish for help or the version.
-/

namespace GormForge
namespace CommandLine

/-- Why a command line cannot be followed. -/
inductive UsageError where
  | unknownArgument (argument : String)
  | missingValue (option : String)
  | unwantedValue (option : String)
  | invalidValue (argument value : String)
  | repeatedOption (option : String)
  | missingOperand (name : String)
  | missingSubcommand (command : String)
  deriving Repr, DecidableEq

/-- The wording of a misuse. -/
def UsageError.message : UsageError → String
  | unknownArgument argument => s!"unexpected argument '{argument}' found"
  | missingValue option => s!"a value is required for '--{option}' but none was supplied"
  | unwantedValue option => s!"unexpected value for '--{option}' found; no more were expected"
  | invalidValue argument value => s!"invalid value '{value}' for '{argument}'"
  | repeatedOption option => s!"the argument '--{option}' cannot be used multiple times"
  | missingOperand name => s!"the required argument <{name}> was not provided"
  | missingSubcommand command =>
      s!"'{command}' requires a subcommand but one was not provided"

/-- Why reading a command line stopped before it came to a call. -/
inductive Stop where
  | misuse (e : UsageError)
  | help (command : Command)
  | version
  deriving Repr, DecidableEq

/-- The arguments of a call. -/
structure Arguments where
  command : Command := .program
  /-- The options given to the command, by long name. -/
  options : List (String × String) := []
  /-- The options given to the commands before it. -/
  inherited : List (String × String) := []
  operands : List String := []
  deriving Repr, DecidableEq

namespace Arguments

/-- The value of an option of the command. -/
def value? (arguments : Arguments) (name : String) : Option String :=
  Keyed.get? name arguments.options

/-- Whether an option of the command was given. -/
def has (arguments : Arguments) (name : String) : Bool :=
  (arguments.value? name).isSome

/-- The value of an option that all commands understand; the last command decides. -/
def globalValue? (arguments : Arguments) (name : String) : Option String :=
  Keyed.get? name (arguments.options ++ arguments.inherited)

/-- Enter an option, which puts another one out of force. -/
def enter (arguments : Arguments) (option : OptionSpec) (value : String) :
    Except UsageError Arguments :=
  if arguments.has option.long then
    .error (.repeatedOption option.long)
  else
    let inForce :=
      match option.overrides with
      | some other => Keyed.erase other arguments.options
      | none => arguments.options
    .ok { arguments with options := inForce ++ [(option.long, value)] }

/-- Enter an option with a value that has to be of a kind. -/
def enterValue (arguments : Arguments) (option : OptionSpec) (kind : ValueKind)
    (value : String) : Except UsageError Arguments :=
  match arguments.enter option value with
  | .error e => .error e
  | .ok entered =>
    if kind.accepts value then .ok entered else .error (.invalidValue ("--" ++ option.long) value)

/-- Enter an operand. -/
def enterOperand (arguments : Arguments) (operand : OperandSpec) (value : String) :
    Except UsageError Arguments :=
  if operand.value.accepts value then
    .ok { arguments with operands := arguments.operands ++ [value] }
  else
    .error (.invalidValue operand.name value)

end Arguments

/-! ## Reading -/

/-- An argument that was read and not yet entered. -/
inductive Pending where
  | nothing
  /-- An option whose value is to come. -/
  | awaiting (option : OptionSpec)
  | valued (option : OptionSpec) (kind : ValueKind) (value : String)
  | operand (operand : OperandSpec) (value : String)
  deriving Repr, DecidableEq

/-- A command line on its way. -/
structure Reader where
  arguments : Arguments := {}
  pending : Pending := .nothing
  /-- Whether everything that follows is an operand. -/
  onlyOperands : Bool := false
  /-- What is wrong with the argument before a subcommand; it counts after all that is wrong
  with the subcommand. -/
  deferred : Option UsageError := none
  deriving Repr, DecidableEq

namespace Reader

/-- Enter what is pending. -/
def settle (reader : Reader) : Except UsageError Reader :=
  let entered : Except UsageError Arguments :=
    match reader.pending with
    | .nothing => .ok reader.arguments
    | .awaiting option => .error (.missingValue option.long)
    | .valued option kind value => reader.arguments.enterValue option kind value
    | .operand operand value => reader.arguments.enterOperand operand value
  entered.map fun arguments => { reader with arguments := arguments, pending := .nothing }

/-- Enter what is pending; what is wrong with it ends the reading. -/
def settled (reader : Reader) : Except Stop Reader :=
  reader.settle.mapError .misuse

/-- Take an option without a value. -/
def takeFlag (reader : Reader) (option : OptionSpec) : Except Stop Reader := do
  let reader ← reader.settled
  if option = .help then
    throw (.help reader.arguments.command)
  else if option = .version then
    throw .version
  else
    let arguments ← (reader.arguments.enter option "").mapError .misuse
    return { reader with arguments := arguments }

/-- Take an option with a value in the same argument. -/
def takeValue (reader : Reader) (option : OptionSpec) (kind : ValueKind) (value : String) :
    Except Stop Reader := do
  let reader ← reader.settled
  let arguments ← (reader.arguments.enterValue option kind value).mapError .misuse
  return { reader with arguments := arguments }

/-- Take an option whose value is to come. -/
def takeAwaiting (reader : Reader) (option : OptionSpec) : Except Stop Reader := do
  let reader ← reader.settled
  return { reader with pending := .awaiting option }

/-- Take an operand. -/
def takeOperand (reader : Reader) (value : String) : Except Stop Reader := do
  let reader ← reader.settled
  match reader.arguments.command.operands[reader.arguments.operands.length]? with
  | some operand => return { reader with pending := .operand operand value }
  | none => throw (.misuse (.unknownArgument value))

/-- Take the text after two dashes. -/
def takeLong (reader : Reader) (body : List Char) : Except Stop Reader :=
  let (name, value) : List Char × Option (List Char) :=
    match Text.splitFirst? ['='] body with
    | some (name, value) => (name, some value)
    | none => (body, none)
  match OptionSpec.withLong? (String.ofList name) reader.arguments.command.options with
  | none => .error (.misuse (.unknownArgument ("--" ++ String.ofList name)))
  | some option =>
    match option.value, value with
    | none, none => reader.takeFlag option
    | none, some _ => .error (.misuse (.unwantedValue option.long))
    | some kind, some value => reader.takeValue option kind (String.ofList value)
    | some _, none => reader.takeAwaiting option

/-- Take the letters after one dash. -/
def takeLetters (reader : Reader) : List Char → Except Stop Reader
  | [] => .ok reader
  | letter :: rest =>
    match OptionSpec.withShort? letter reader.arguments.command.options with
    | none => .error (.misuse (.unknownArgument ("-" ++ String.singleton letter)))
    | some option =>
      match option.value, rest with
      | none, rest =>
        match reader.takeFlag option with
        | .error stop => .error stop
        | .ok next => takeLetters next rest
      | some _, [] => reader.takeAwaiting option
      | some kind, '=' :: value => reader.takeValue option kind (String.ofList value)
      | some kind, value => reader.takeValue option kind (String.ofList value)

/-- Take an argument that has no dash. -/
def takePlain (reader : Reader) (argument : String) : Except Stop Reader :=
  match reader.pending with
  | .awaiting option =>
      .ok { reader with pending := .valued option (option.value.getD .text) argument }
  | _ => reader.takeOperand argument

/-- Take an argument that is no subcommand. -/
def take (reader : Reader) (argument : String) : Except Stop Reader :=
  if reader.onlyOperands then
    reader.takeOperand argument
  else
    match argument.toList with
    | ['-', '-'] => .ok { reader with onlyOperands := true }
    | '-' :: '-' :: body => reader.takeLong body
    | '-' :: letter :: rest => reader.takeLetters (letter :: rest)
    | _ => reader.takePlain argument

/-! ## Subcommands -/

/-- Whether an argument can be a subcommand. -/
def expectsSubcommand (reader : Reader) : Bool :=
  match reader.pending with
  | .awaiting _ => false
  | _ => !reader.onlyOperands

/-- The subcommand that an argument calls. -/
def subcommand? (reader : Reader) (argument : String) : Option Command :=
  if reader.expectsSubcommand then
    reader.arguments.command.subcommands.find? fun command => command.word == argument
  else
    none

/-- Go on with a subcommand. -/
def descend (reader : Reader) (command : Command) : Reader :=
  let inherited (arguments : Arguments) := arguments.options ++ arguments.inherited
  match reader.settle with
  | .ok settled =>
      { arguments := { command := command, inherited := inherited settled.arguments }
        deferred := settled.deferred }
  | .error e =>
      { arguments := { command := command, inherited := inherited reader.arguments }
        deferred := some (reader.deferred.getD e) }

/-- The word that asks for help on a subcommand. -/
def helpWord : String := "help"

/-- The help that a chain of subcommands asks for. -/
def helpOn (command : Command) : List String → Stop
  | [] => .help command
  | word :: rest =>
    match command.subcommands.find? fun sub => sub.word == word with
    | some sub => helpOn sub rest
    | none => .misuse (.unknownArgument word)

/-- Whether an argument asks for help on a subcommand. -/
def asksForHelp (reader : Reader) (argument : String) : Bool :=
  reader.expectsSubcommand && !reader.arguments.command.subcommands.isEmpty &&
    argument == helpWord

/-- Read arguments from left to right. -/
def readAll (reader : Reader) : List String → Except Stop Reader
  | [] => .ok reader
  | argument :: rest =>
    match reader.subcommand? argument with
    | some command => readAll (reader.descend command) rest
    | none =>
      if reader.asksForHelp argument then
        .error (helpOn reader.arguments.command rest)
      else
        match reader.take argument with
        | .error stop => .error stop
        | .ok next => readAll next rest

/-- The first operand that is required and missing. -/
def missingOperand? (arguments : Arguments) : Option String :=
  ((arguments.command.operands.drop arguments.operands.length).find? (·.required)).map (·.name)

/-- Check that nothing is missing at the end. -/
def finish (reader : Reader) : Except UsageError Arguments :=
  match reader.settle with
  | .error e => .error e
  | .ok settled =>
    let arguments := settled.arguments
    if !arguments.command.subcommands.isEmpty then
      .error (.missingSubcommand arguments.command.word)
    else
      match missingOperand? arguments, settled.deferred with
      | some name, _ => .error (.missingOperand name)
      | none, some e => .error e
      | none, none => .ok arguments

end Reader

/-- Read a command line. -/
def Arguments.parse (line : List String) : Except Stop Arguments :=
  match Reader.readAll {} line with
  | .error stop => .error stop
  | .ok reader => reader.finish.mapError .misuse

end CommandLine
end GormForge
