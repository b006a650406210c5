import GormForge.Keyed
import GormForge.Toml.Quoted
import GormForge.Toml.Scalar

/-!
# TOML documents

**Input.**  The text of a document, perhaps after a byte order mark.

**Algorithm.**  Values are read by descent, with the length of the text as the measure.  A
document is a list of headers and entries, each of which changes the tree built so far; a
table remembers how it came to be, because that decides what may still be added to it.

**Results.**  `parse?` gives the table of a document, nothing if the text is no document.
-/

namespace GormForge
namespace Toml

/-! ## Gaps -/

/-- What follows the blanks and an optional comment at the front. -/
def afterComment (cs : List Char) : List Char :=
  match cs.dropWhile isSpace with
  | '#' :: rest => rest.dropWhile isPlain
  | rest => rest

/-- What follows the rest of a line. -/
def afterLine? (cs : List Char) : Option (List Char) :=
  match afterComment cs with
  | [] => some []
  | rest => afterBreak? rest

/-- What follows blanks, comments and line breaks, in at most `fuel` lines. -/
def afterGapFrom : Nat → List Char → List Char
  | 0, cs => cs
  | fuel + 1, cs =>
    match afterBreak? (afterComment cs) with
    | some rest => afterGapFrom fuel rest
    | none => afterComment cs

/-- What follows blanks, comments and line breaks. -/
def afterGap (cs : List Char) : List Char :=
  afterGapFrom cs.length cs

/-! ## Keys -/

/-- A character of a key without quotes. -/
def isKeyChar (c : Char) : Bool :=
  c.isAlphanum || c == '_' || c == '-'

/-- Read one part of a key. -/
def keyPart? (cs : List Char) : Reading String :=
  match lineString? cs with
  | some found => some found
  | none =>
    let word := cs.takeWhile isKeyChar
    if word = [] then none else some (String.ofList word, cs.dropWhile isKeyChar)

/-- Read the parts of a dotted key, at most `fuel` of them. -/
def keyFrom : Nat → List Char → Reading (List String)
  | 0, _ => none
  | fuel + 1, cs =>
    match keyPart? (cs.dropWhile isSpace) with
    | none => none
    | some (part, rest) =>
      match rest.dropWhile isSpace with
      | '.' :: more => (keyFrom fuel more).map fun found => (part :: found.1, found.2)
      | rest => some ([part], rest)

/-- Read a key and the blanks after it. -/
def key? (cs : List Char) : Reading (List String) :=
  keyFrom (cs.length + 1) cs

/-! ## Trees -/

/-- How a table came to be. -/
inductive Origin where
  /-- On the way to another table's header. -/
  | passed
  /-- By its own header. -/
  | header
  /-- By a dotted key. -/
  | dotted
  deriving Repr, DecidableEq

/-- A tree of tables under construction. -/
inductive Node where
  | value (v : Value)
  | table (origin : Origin) (entries : List (String × Node))
  | tables (items : List (List (String × Node)))
  deriving Inhabited

/-- The entries of a table under construction. -/
abbrev Entries := List (String × Node)

mutual

/-- The value of a finished tree. -/
def Node.finish : Node → Value
  | .value v => v
  | .table _ entries => .table (finishEntries entries)
  | .tables items => .array (finishItems items)

/-- The values of finished entries. -/
def finishEntries : List (String × Node) → List (String × Value)
  | [] => []
  | (key, node) :: rest => (key, node.finish) :: finishEntries rest

/-- The values of finished tables. -/
def finishItems : List (List (String × Node)) → List Value
  | [] => []
  | item :: rest => .table (finishEntries item) :: finishItems rest

end

/-- Enter a value under a dotted key. -/
def enter : List String → Value → Entries → Option Entries
  | [], _, _ => none
  | [key], v, entries =>
    match Keyed.get? key entries with
    | some _ => none
    | none => some (entries ++ [(key, .value v)])
  | key :: more, v, entries =>
    match Keyed.get? key entries with
    | none => (enter more v []).map fun inner => entries ++ [(key, .table .dotted inner)]
    | some (.table .header _) => none
    | some (.table origin inner) =>
        (enter more v inner).map fun inner => Keyed.put key (.table origin inner) entries
    | some _ => none

/-- Open the table of a header, as one more table of an array if `repeated`. -/
def openTable (repeated : Bool) : List String → Entries → Option Entries
  | [], _ => none
  | [key], entries =>
    match repeated, Keyed.get? key entries with
    | false, none => some (entries ++ [(key, .table .header [])])
    | false, some (.table .passed inner) => some (Keyed.put key (.table .header inner) entries)
    | true, none => some (entries ++ [(key, .tables [[]])])
    | true, some (.tables items) => some (Keyed.put key (.tables (items ++ [[]])) entries)
    | _, some _ => none
  | key :: more, entries =>
    match Keyed.get? key entries with
    | none => (openTable repeated more []).map fun inner => entries ++ [(key, .table .passed inner)]
    | some (.table origin inner) =>
        (openTable repeated more inner).map fun inner => Keyed.put key (.table origin inner) entries
    | some (.tables items) =>
        match items.getLast? with
        | none => none
        | some last =>
            (openTable repeated more last).map fun last =>
              Keyed.put key (.tables (items.dropLast ++ [last])) entries
    | some (.value _) => none

/-- Change the entries of the table that the last header opened. -/
def within (change : Entries → Option Entries) : List String → Entries → Option Entries
  | [], entries => change entries
  | key :: more, entries =>
    match Keyed.get? key entries with
    | some (.table origin inner) =>
        (within change more inner).map fun inner => Keyed.put key (.table origin inner) entries
    | some (.tables items) =>
        match items.getLast? with
        | none => none
        | some last =>
            (within change more last).map fun last =>
              Keyed.put key (.tables (items.dropLast ++ [last])) entries
    | _ => none

/-! ## Values -/

mutual

/-- Read a value in at most `fuel` steps. -/
def valueFrom : Nat → List Char → Reading Value
  | 0, _ => none
  | fuel + 1, cs =>
    match cs with
    | '[' :: rest =>
        (itemsFrom fuel (afterGap rest)).map fun found => (.array found.1, found.2)
    | '{' :: rest =>
        (pairsFrom fuel [] (afterGap rest)).map fun found =>
          (.table (finishEntries found.1), found.2)
    | _ =>
      match string? cs with
      | some (s, rest) => some (.string s, rest)
      | none =>
        let (word, rest) := cutScalar cs
        (scalar? word).map fun v => (v, rest)

/-- Read the items of an array after its bracket or after a comma. -/
def itemsFrom : Nat → List Char → Reading (List Value)
  | 0, _ => none
  | fuel + 1, cs =>
    match cs with
    | ']' :: rest => some ([], rest)
    | _ =>
      match valueFrom fuel cs with
      | none => none
      | some (v, rest) =>
        match afterGap rest with
        | ']' :: rest => some ([v], rest)
        | ',' :: rest =>
            (itemsFrom fuel (afterGap rest)).map fun found => (v :: found.1, found.2)
        | _ => none

/-- Read the entries of an inline table after its brace or after a comma. -/
def pairsFrom : Nat → Entries → List Char → Reading Entries
  | 0, _, _ => none
  | fuel + 1, entries, cs =>
    match cs with
    | '}' :: rest => some (entries, rest)
    | _ =>
      match key? cs with
      | some (path, '=' :: rest) =>
        match valueFrom fuel (rest.dropWhile isSpace) with
        | none => none
        | some (v, rest) =>
          match enter path v entries with
          | none => none
          | some entries =>
            match afterGap rest with
            | '}' :: rest => some (entries, rest)
            | ',' :: rest => pairsFrom fuel entries (afterGap rest)
            | _ => none
      | _ => none

end

/-- Read a value. -/
def value? (cs : List Char) : Reading Value :=
  valueFrom (2 * cs.length + 2) cs

/-! ## Documents -/

/-- A tree under construction and the path of the table that the last header opened. -/
structure Progress where
  root : Entries := []
  current : List String := []

/-- What follows a header and the progress with its table opened. -/
def header? (progress : Progress) (cs : List Char) : Option (Progress × List Char) :=
  let (repeated, cs) :=
    match cs with
    | '[' :: rest => (true, rest)
    | rest => (false, rest)
  match key? cs with
  | none => none
  | some (path, rest) =>
    match Text.afterPrefix? (if repeated then [']', ']'] else [']']) rest with
    | none => none
    | some rest => (openTable repeated path progress.root).map fun root => (⟨root, path⟩, rest)

/-- What follows an entry and the progress with it entered. -/
def entryOf? (progress : Progress) (cs : List Char) : Option (Progress × List Char) :=
  match key? cs with
  | some (path, '=' :: rest) =>
    match value? (rest.dropWhile isSpace) with
    | none => none
    | some (v, rest) =>
        (within (enter path v) progress.current progress.root).map fun root =>
          ({ progress with root := root }, rest)
  | _ => none

/-- Read headers and entries, at most `fuel` of them. -/
def expressionsFrom : Nat → Progress → List Char → Option Entries
  | 0, _, _ => none
  | fuel + 1, progress, cs =>
    match afterGap cs with
    | [] => some progress.root
    | c :: rest =>
      match if c = '[' then header? progress rest else entryOf? progress (c :: rest) with
      | none => none
      | some (progress, rest) =>
        match afterLine? rest with
        | none => none
        | some rest => expressionsFrom fuel progress rest

/-- The entries of a document. -/
def parse? (content : String) : Option (List (String × Value)) :=
  let cs := content.toList
  let cs := (Text.afterPrefix? [Char.ofNat 0xFEFF] cs).getD cs
  (expressionsFrom (cs.length + 1) {} cs).map finishEntries

end Toml
end GormForge
