import GormForge.Text.Blank
import GormForge.Text.Digit
import GormForge.Text.Lines

/-!
# Diagnostics of formatting tools

**Input.**  What a tool writes to its error output.

**Algorithm.**  A line counts when it holds a colon, digits, a colon, digits and a colon; the
first place where it does so decides.  A line whose numbers are no machine words does not
count at all.

**Results.**  `firstDiagnostic?` is the position and the message of the first such line.
-/

namespace GormForge
namespace Format

/-- A position in a source, from one, and what is wrong there. -/
structure Diagnostic where
  line : Nat
  column : Nat
  message : String
  deriving Repr, DecidableEq

/-- The digits at the front that a colon follows, and the text after it. -/
def digitsColon? (cs : List Char) : Option (List Char × List Char) :=
  match cs.takeWhile Text.isDecimalDigit, cs.dropWhile Text.isDecimalDigit with
  | d :: ds, ':' :: rest => some (d :: ds, rest)
  | _, _ => none

/-- The two runs of digits and the rest of a text that begins like a diagnostic. -/
def positionAt? (cs : List Char) : Option (List Char × List Char × List Char) :=
  match cs with
  | ':' :: rest =>
    match digitsColon? rest with
    | some (line, rest) =>
        (digitsColon? rest).map fun found => (line, found.1, found.2)
    | none => none
  | _ => none

/-- The first position in a line. -/
def firstPosition? : List Char → Option (List Char × List Char × List Char)
  | [] => none
  | c :: cs =>
    match positionAt? (c :: cs) with
    | some found => some found
    | none => firstPosition? cs

/-- The diagnostic that a line holds. -/
def diagnosticOfLine? (line : List Char) : Option Diagnostic :=
  match firstPosition? line with
  | none => none
  | some (lineDigits, columnDigits, rest) =>
    match Text.wordOfAscii? lineDigits, Text.wordOfAscii? columnDigits with
    | some l, some c => some ⟨l, c, String.ofList (Text.trimChars rest)⟩
    | _, _ => none

/-- The first diagnostic in a text. -/
def firstDiagnostic? (output : String) : Option Diagnostic :=
  (Text.lines output.toList).findSome? diagnosticOfLine?

end Format
end GormForge
