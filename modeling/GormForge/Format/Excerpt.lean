import GormForge.Path
import GormForge.Text.Lines
import GormForge.Text.Utf8

/-!
# Excerpts of rejected sources

**Input.**  A source text and the line and column, both from one, at which a tool found
fault with it.

**Results.**  `spanOf?` is the rest of the line as a range of bytes; `excerpt` shows the
line among its neighbours, numbered and marked.
-/

namespace GormForge

/-- A range of bytes. -/
structure Span where
  offset : Nat
  length : Nat
  deriving Repr, DecidableEq

namespace Format

/-- The lines of a text together with what ends them. -/
def terminatedLines : List (List Char) → List (List Char)
  | [] => []
  | [last] => if last = [] then [] else [last]
  | part :: rest => (part ++ ['\n']) :: terminatedLines rest

/-- The range of bytes from a column to the end of its line.  A column past the end gives
an empty range there. -/
def spanOf? (source : String) (line column : Nat) : Option Span :=
  match line with
  | 0 => none
  | before + 1 =>
    let parts := terminatedLines (Text.pieces source.toList)
    let offset := Text.byteLength (parts.take before).flatten
    match Text.lines (parts.drop before).flatten with
    | [] => none
    | shown :: _ =>
      let length := Text.byteLength shown
      let start := min (column - 1) length
      some ⟨offset + start, length - start⟩

/-- A number with blanks before it up to a width. -/
def padded (width n : Nat) : String :=
  let digits := toString n
  String.ofList (List.replicate (width - digits.length) ' ') ++ digits

/-- One row of an excerpt. -/
def excerptRow (width target n : Nat) (text : List Char) : String :=
  (if n = target then "> " else "  ") ++ padded width n ++ " | " ++ String.ofList text

/-- The row of a marked line and up to `radius` rows on each side. -/
def excerpt (source : String) (line radius : Nat) : String :=
  let lines := Text.lines source.toList
  if lines.isEmpty then
    ""
  else
    let target := max 1 (min line lines.length)
    let start := max 1 (target - radius)
    let stop := min (target + radius) lines.length
    let width := (toString stop).length
    let shown := (lines.drop (start - 1)).take (stop + 1 - start)
    String.intercalate "\n" (shown.mapIdx fun i text => excerptRow width target (start + i) text)

/-- How many rows an error shows on each side of the line. -/
def contextRadius : Nat := 5

end Format

/-- A source that a formatter rejected. -/
structure FormatError where
  path : Path
  line : Nat
  column : Nat
  message : String
  span : Option Span
  /-- The line with its neighbours. -/
  excerpt : String
  deriving Repr, DecidableEq

namespace FormatError

/-- The error for a position in a source. -/
def ofPosition (path : Path) (source : String) (line column : Nat) (message : String) : FormatError :=
  { path, line, column, message,
    span := Format.spanOf? source line column,
    excerpt := Format.excerpt source line Format.contextRadius }

/-- The wording of the error. -/
def wording (e : FormatError) : String :=
  s!"cannot format '{e.path.text}': line {e.line}: {e.message}"

end FormatError
end GormForge
