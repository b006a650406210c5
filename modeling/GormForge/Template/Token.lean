import GormForge.Text.Blank
import GormForge.Text.Percent
import GormForge.Text.Search

/-!
# Template tokens

**Input.**  The source of a template.

**Algorithm.**  The source is cut at the marks that open outputs, block tags and comments.
Blanks on the line before a block tag or a comment are dropped when nothing else precedes
them there, and so is the line break after it; signs inside the marks ask for more or for
less than that.

**Results.**  `chunksOf?` gives the text, outputs and tags of a source, nothing if a mark is
not closed or holds what is no token.
-/

namespace GormForge
namespace Template

/-- A token of an output or a tag. -/
inductive Token where
  | word (s : String)
  | quoted (s : String)
  | number (n : Nat)
  | sign (s : String)
  deriving Repr, DecidableEq, Inhabited

/-- A part of a source: text, an output or a tag. -/
inductive Chunk where
  | text (cs : List Char)
  | output (tokens : List Token)
  | tag (tokens : List Token)
  deriving Repr, DecidableEq, Inhabited

/-! ## Tokens -/

/-- A blank between tokens. -/
def isGap (c : Char) : Bool :=
  c == ' ' || c == '\t' || c == '\n' || c == '\r' || c == Char.ofNat 12

/-- A character that begins a word. -/
def isWordStart (c : Char) : Bool :=
  c.isAlpha || c == '_'

/-- A character of a word. -/
def isWordPart (c : Char) : Bool :=
  c.isAlphanum || c == '_'

/-- The signs that are tokens, the longer ones first. -/
def signs : List String := ["==", "!=", ".", "~", "(", ")"]

/-- The character after a backslash in a quoted text. -/
def escaped? : Char → Option Char
  | 'n' => some '\n'
  | 'r' => some '\r'
  | 't' => some '\t'
  | 'b' => some (Char.ofNat 8)
  | 'f' => some (Char.ofNat 12)
  | '"' => some '"'
  | '\'' => some '\''
  | '\\' => some '\\'
  | '/' => some '/'
  | _ => none

/-- The character of a quoted text that four hexadecimal digits stand for. -/
def escapedCode? (cs : List Char) : Option Char :=
  if cs.length = 4 ∧ cs.all fun c => (Text.hexValue? c).isSome then
    let code := cs.foldl (fun acc c => acc * 16 + (Text.hexValue? c).getD 0) 0
    if code.isValidChar then some (Char.ofNat code) else none
  else
    none

/-- Read a quoted text up to its quote, after skipping the first `skip` characters. -/
def quotedFrom (quote : Char) : Nat → List Char → Option (List Char × List Char)
  | _, [] => none
  | skip + 1, _ :: rest => quotedFrom quote skip rest
  | 0, c :: rest =>
    if c = quote then
      some ([], rest)
    else if c = '\\' then
      match rest.head? with
      | some 'u' =>
        match escapedCode? ((rest.drop 1).take 4) with
        | some d => (quotedFrom quote 5 rest).map fun found => (d :: found.1, found.2)
        | none => none
      | some e =>
        match escaped? e with
        | some d => (quotedFrom quote 1 rest).map fun found => (d :: found.1, found.2)
        | none => none
      | none => none
    else
      (quotedFrom quote 0 rest).map fun found => (c :: found.1, found.2)

/-- Read one token. -/
def token? (cs : List Char) : Option (Token × List Char) :=
  match cs with
  | [] => none
  | c :: rest =>
    if isWordStart c then
      some (.word (String.ofList (cs.takeWhile isWordPart)), cs.dropWhile isWordPart)
    else if c.isDigit then
      let digits := cs.takeWhile Char.isDigit
      some (.number (digits.foldl (fun n d => n * 10 + (d.toNat - '0'.toNat)) 0),
        cs.dropWhile Char.isDigit)
    else if c = '"' ∨ c = '\'' then
      (quotedFrom c 0 rest).map fun found => (.quoted (String.ofList found.1), found.2)
    else
      signs.findSome? fun s =>
        (Text.afterPrefix? s.toList cs).map fun rest => (.sign s, rest)

/-- What a mark asks to do with the blanks beside it. -/
inductive Trim where
  | default
  | none
  | all
  deriving Repr, DecidableEq, Inhabited

/-- What follows a closing mark, perhaps with a sign in it. -/
def afterClose? (close cs : List Char) : Option (Trim × List Char) :=
  match Text.afterPrefix? close cs with
  | some rest => some (.default, rest)
  | none =>
    match cs with
    | '-' :: rest => (Text.afterPrefix? close rest).map fun rest => (.all, rest)
    | '+' :: rest => (Text.afterPrefix? close rest).map fun rest => (.none, rest)
    | _ => none

/-- Read tokens up to a closing mark, at most `fuel` of them. -/
def tokensFrom (close : List Char) : Nat → List Char → Option (List Token × Trim × List Char)
  | 0, _ => none
  | fuel + 1, cs =>
    let cs := cs.dropWhile isGap
    match afterClose? close cs with
    | some (trim, rest) => some ([], trim, rest)
    | none =>
      match token? cs with
      | none => none
      | some (token, rest) =>
        (tokensFrom close fuel rest).map fun found => (token :: found.1, found.2)

/-! ## Marks -/

/-- What a mark opens. -/
inductive Mark where
  | output
  | tag
  | comment
  deriving Repr, DecidableEq, Inhabited

/-- The mark that two characters make. -/
def markOf? : Char → Char → Option Mark
  | '\x7b', '\x7b' => some .output
  | '\x7b', '%' => some .tag
  | '\x7b', '#' => some .comment
  | _, _ => none

/-- The text before the first mark, the mark and what follows it. -/
def splitMark? : List Char → Option (List Char × Mark × List Char)
  | c :: d :: rest =>
    match markOf? c d with
    | some mark => some ([], mark, rest)
    | none => (splitMark? (d :: rest)).map fun found => (c :: found.1, found.2)
  | _ => none

/-- A line break. -/
def isBreak (c : Char) : Bool :=
  c == '\n' || c == '\r'

/-- Whether only blanks precede on the line, given what precedes in reverse. -/
def atLineStart (before : List Char) : Bool :=
  match before.dropWhile fun c => Text.isBlank c && !isBreak c with
  | [] => true
  | c :: _ => isBreak c

/-- The text before a mark without the blanks that the mark drops. -/
def trimmedLead (before lead : List Char) (mark : Mark) (trim : Trim) : List Char :=
  match trim with
  | .all => Text.trimEndBy Text.isBlank lead
  | .none => lead
  | .default =>
    if mark ≠ .output ∧ atLineStart (lead.reverse ++ before) then
      Text.trimEndBy (fun c => Text.isBlank c && !isBreak c) lead
    else
      lead

/-- What follows one line break. -/
def afterLineBreak (cs : List Char) : List Char :=
  let cs := (Text.afterPrefix? ['\r'] cs).getD cs
  (Text.afterPrefix? ['\n'] cs).getD cs

/-- The source after a closing mark without what the mark drops. -/
def afterMark (mark : Mark) (trim : Trim) (cs : List Char) : List Char :=
  match trim with
  | .all => cs.dropWhile Text.isBlank
  | .none => cs
  | .default => if mark = .output then cs else afterLineBreak cs

/-- The sign at the end of a comment. -/
def commentTrim (body : List Char) : Trim :=
  match body.getLast? with
  | some '-' => .all
  | some '+' => .none
  | _ => .default

/-- The sign right after an opening mark. -/
def openTrim (cs : List Char) : Trim × List Char :=
  match cs with
  | '-' :: rest => (.all, rest)
  | '+' :: rest => (.none, rest)
  | _ => (.default, cs)

/-- The contents of an opened mark and what follows its closing mark. -/
def contents? (mark : Mark) (cs : List Char) : Option (List Chunk × Trim × List Char) :=
  match mark with
  | .comment =>
      (Text.splitFirst? "#\x7d".toList cs).map fun found => ([], commentTrim found.1, found.2)
  | .output =>
      (tokensFrom "\x7d\x7d".toList (cs.length + 1) cs).map fun found =>
        ([.output found.1], found.2)
  | .tag =>
      (tokensFrom "%\x7d".toList (cs.length + 1) cs).map fun found => ([.tag found.1], found.2)

/-- Cut a source that follows the reversed source `before`, at most `fuel` marks of it. -/
def chunksFrom : Nat → List Char → List Char → Option (List Chunk)
  | 0, _, _ => none
  | fuel + 1, before, cs =>
    match splitMark? cs with
    | none => some [.text cs]
    | some (lead, mark, rest) =>
      let (trim, inside) := openTrim rest
      match contents? mark inside with
      | none => none
      | some (found, closeTrim, rest) =>
        let next := afterMark mark closeTrim rest
        let passed := (cs.take (cs.length - next.length)).reverse
        (chunksFrom fuel (passed ++ before) next).map fun chunks =>
          .text (trimmedLead before lead mark trim) :: found ++ chunks

/-- The text, outputs and tags of a source. -/
def chunksOf? (source : String) : Option (List Chunk) :=
  chunksFrom (source.toList.length + 1) [] source.toList

end Template
end GormForge
