import GormForge.Text.Percent
import GormForge.Text.Search

/-!
# TOML strings

**Input.**  The characters after the opening delimiter of a string.

**Algorithm.**  Basic strings know escapes, literal strings do not; multi-line strings drop
a line break right after the opening delimiter, write every line break as a line feed and
may hold up to two quotes in front of the closing delimiter.

**Results.**  Each reader gives the text and what follows the closing delimiter.
-/

namespace GormForge
namespace Toml

/-- A text that was read and the characters after it. -/
abbrev Reading (α : Type) := Option (α × List Char)

/-- Put a character in front of a text that was read. -/
def Reading.cons (c : Char) (reading : Reading (List Char)) : Reading (List Char) :=
  reading.map fun found => (c :: found.1, found.2)

/-- A blank within a line. -/
def isSpace (c : Char) : Bool :=
  c == ' ' || c == '\t'

/-- A character that may stand in a comment or between quotes. -/
def isPlain (c : Char) : Bool :=
  c == '\t' || (0x20 ≤ c.toNat && c.toNat != 0x7F)

/-- What follows a line break at the front. -/
def afterBreak? : List Char → Option (List Char)
  | '\n' :: rest => some rest
  | '\r' :: '\n' :: rest => some rest
  | _ => none

/-! ## Escapes -/

/-- The character whose code point is written by hexadecimal digits. -/
def charOfHex? (digits : List Char) : Option Char :=
  let code := digits.foldl
    (fun acc c => acc.bind fun n => (Text.hexValue? c).map (n * 16 + ·)) (some 0)
  (code.filter Nat.isValidChar).map Char.ofNat

/-- The character written by the next `n` hexadecimal digits. -/
def hexEscape? (n : Nat) (cs : List Char) : Reading Char :=
  if (cs.take n).length = n then
    (charOfHex? (cs.take n)).map fun c => (c, cs.drop n)
  else
    none

/-- The character that an escape stands for, read after its backslash. -/
def escape? : List Char → Reading Char
  | [] => none
  | c :: rest =>
    match c with
    | 'b' => some (Char.ofNat 8, rest)
    | 't' => some ('\t', rest)
    | 'n' => some ('\n', rest)
    | 'f' => some (Char.ofNat 12, rest)
    | 'r' => some ('\r', rest)
    | 'e' => some (Char.ofNat 27, rest)
    | '"' => some ('"', rest)
    | '\\' => some ('\\', rest)
    | 'x' => hexEscape? 2 rest
    | 'u' => hexEscape? 4 rest
    | 'U' => hexEscape? 8 rest
    | _ => none

/-- What follows a backslash that ends its line: the next line's text, past all blanks and
line breaks. -/
def afterContinuation? (cs : List Char) : Option (List Char) :=
  (afterBreak? (cs.dropWhile isSpace)).map fun rest =>
    rest.dropWhile fun c => isSpace c || c == '\n' || c == '\r'

/-! ## Strings on one line -/

/-- Read a basic string in at most `fuel` steps. -/
def basicFrom : Nat → List Char → Reading (List Char)
  | 0, _ => none
  | _, [] => none
  | fuel + 1, c :: rest =>
    if c = '"' then some ([], rest)
    else if c = '\\' then
      match escape? rest with
      | some (d, rest) => (basicFrom fuel rest).cons d
      | none => none
    else if isPlain c then (basicFrom fuel rest).cons c
    else none

/-- Read a literal string. -/
def literal? : List Char → Reading (List Char)
  | [] => none
  | c :: rest =>
    if c = '\'' then some ([], rest)
    else if isPlain c then (literal? rest).cons c
    else none

/-! ## Strings on several lines -/

/-- Read the closing delimiter with the quotes before it that belong to the text. -/
def closing? (quote : Char) (cs : List Char) : Reading (List Char) :=
  let run := (cs.takeWhile (· == quote)).length
  if run < 3 then none
  else some (List.replicate (min run 5 - 3) quote, cs.drop (min run 5))

/-- Read a string on several lines in at most `fuel` steps. -/
def multilineFrom (quote : Char) (escapes : Bool) : Nat → List Char → Reading (List Char)
  | 0, _ => none
  | _, [] => none
  | fuel + 1, c :: rest =>
    match closing? quote (c :: rest) with
    | some found => some found
    | none =>
      if escapes && c == '\\' then
        match afterContinuation? rest with
        | some rest => multilineFrom quote escapes fuel rest
        | none =>
          match escape? rest with
          | some (d, rest) => (multilineFrom quote escapes fuel rest).cons d
          | none => none
      else
        match afterBreak? (c :: rest) with
        | some rest => (multilineFrom quote escapes fuel rest).cons '\n'
        | none =>
          if isPlain c then (multilineFrom quote escapes fuel rest).cons c else none

/-- Read a string on several lines after its opening delimiter. -/
def multiline? (quote : Char) (escapes : Bool) (cs : List Char) : Reading (List Char) :=
  let cs := (afterBreak? cs).getD cs
  multilineFrom quote escapes (cs.length + 1) cs

/-! ## All strings -/

/-- Read a string on one line, opening delimiter included. -/
def lineString? : List Char → Reading String
  | '"' :: rest =>
      (basicFrom (rest.length + 1) rest).map fun found => (String.ofList found.1, found.2)
  | '\'' :: rest => (literal? rest).map fun found => (String.ofList found.1, found.2)
  | _ => none

/-- Read any string, opening delimiter included. -/
def string? (cs : List Char) : Reading String :=
  match Text.afterPrefix? "\"\"\"".toList cs, Text.afterPrefix? "'''".toList cs with
  | some rest, _ =>
      (multiline? '"' true rest).map fun found => (String.ofList found.1, found.2)
  | none, some rest =>
      (multiline? '\'' false rest).map fun found => (String.ofList found.1, found.2)
  | none, none => lineString? cs

end Toml
end GormForge
