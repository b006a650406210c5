import GormForge.Template.Node
import GormForge.Template.Token

/-!
# Reading templates

**Input.**  The source of a template.

**Algorithm.**  The chunks of the source are read by descent.  From the loosest to the
tightest, expressions are choices, disjunctions, conjunctions, negations, comparisons,
joins, and names with their members.  The number of tokens bounds the depth.

**Results.**  `parse?` gives the nodes of a source, nothing if the source is no template in the
language of these nodes.
-/

namespace GormForge
namespace Template

/-! ## Expressions -/

/-- An expression that was read and the tokens after it. -/
abbrev ExprReading := Option (Expr × List Token)

/-- Words that name no value. -/
def operatorWords : List String := ["if", "else", "and", "or", "not", "in", "is"]

/-- The value that a word stands for by itself. -/
def wordExpr? (s : String) : Option Expr :=
  if s = "true" ∨ s = "True" then some (.literal (.boolean true))
  else if s = "false" ∨ s = "False" then some (.literal (.boolean false))
  else if s = "none" ∨ s = "None" then some (.literal .null)
  else if operatorWords.contains s then none
  else some (.name s)

/-- Read the members that follow an expression. -/
def membersOf (e : Expr) : List Token → ExprReading
  | .sign "." :: .word s :: rest => membersOf (.member e s) rest
  | .sign "." :: _ => none
  | tokens => some (e, tokens)

mutual

/-- Read a choice between values. -/
def choiceFrom : Nat → List Token → ExprReading
  | 0, _ => none
  | fuel + 1, tokens =>
    match disjunctionFrom fuel tokens with
    | none => none
    | some (e, rest) => choicesAfter fuel e rest

/-- Read the conditions that follow a value. -/
def choicesAfter : Nat → Expr → List Token → ExprReading
  | 0, _, _ => none
  | fuel + 1, e, .word "if" :: rest =>
    match disjunctionFrom fuel rest with
    | none => none
    | some (c, .word "else" :: rest) =>
      match choiceFrom fuel rest with
      | none => none
      | some (o, rest) => choicesAfter fuel (.choose e c (some o)) rest
    | some (c, rest) => choicesAfter fuel (.choose e c none) rest
  | _, e, tokens => some (e, tokens)

/-- Read a disjunction. -/
def disjunctionFrom : Nat → List Token → ExprReading
  | 0, _ => none
  | fuel + 1, tokens =>
    match conjunctionFrom fuel tokens with
    | none => none
    | some (e, rest) => disjunctsAfter fuel e rest

/-- Read the alternatives that follow an expression. -/
def disjunctsAfter : Nat → Expr → List Token → ExprReading
  | 0, _, _ => none
  | fuel + 1, e, .word "or" :: rest =>
    match conjunctionFrom fuel rest with
    | none => none
    | some (r, rest) => disjunctsAfter fuel (.either e r) rest
  | _, e, tokens => some (e, tokens)

/-- Read a conjunction. -/
def conjunctionFrom : Nat → List Token → ExprReading
  | 0, _ => none
  | fuel + 1, tokens =>
    match negationFrom fuel tokens with
    | none => none
    | some (e, rest) => conjunctsAfter fuel e rest

/-- Read the further conditions that follow an expression. -/
def conjunctsAfter : Nat → Expr → List Token → ExprReading
  | 0, _, _ => none
  | fuel + 1, e, .word "and" :: rest =>
    match negationFrom fuel rest with
    | none => none
    | some (r, rest) => conjunctsAfter fuel (.both e r) rest
  | _, e, tokens => some (e, tokens)

/-- Read a negation. -/
def negationFrom : Nat → List Token → ExprReading
  | 0, _ => none
  | fuel + 1, .word "not" :: rest =>
    (negationFrom fuel rest).map fun found => (.negate found.1, found.2)
  | fuel + 1, tokens =>
    match joinFrom fuel tokens with
    | none => none
    | some (e, rest) => comparisonsAfter fuel e rest

/-- Read the comparisons that follow an expression. -/
def comparisonsAfter : Nat → Expr → List Token → ExprReading
  | 0, _, _ => none
  | fuel + 1, e, .sign "==" :: rest =>
    match joinFrom fuel rest with
    | none => none
    | some (r, rest) => comparisonsAfter fuel (.equal e r) rest
  | fuel + 1, e, .sign "!=" :: rest =>
    match joinFrom fuel rest with
    | none => none
    | some (r, rest) => comparisonsAfter fuel (.unequal e r) rest
  | _, e, tokens => some (e, tokens)

/-- Read texts that are joined. -/
def joinFrom : Nat → List Token → ExprReading
  | 0, _ => none
  | fuel + 1, tokens =>
    match atomFrom fuel tokens with
    | none => none
    | some (e, rest) => joinsAfter fuel e rest

/-- Read the texts that follow a text. -/
def joinsAfter : Nat → Expr → List Token → ExprReading
  | 0, _, _ => none
  | fuel + 1, e, .sign "~" :: rest =>
    match atomFrom fuel rest with
    | none => none
    | some (r, rest) => joinsAfter fuel (.join e r) rest
  | _, e, tokens => some (e, tokens)

/-- Read a value with its members. -/
def atomFrom : Nat → List Token → ExprReading
  | 0, _ => none
  | fuel + 1, .sign "(" :: rest =>
    match choiceFrom fuel rest with
    | some (e, .sign ")" :: rest) => membersOf e rest
    | _ => none
  | _, .word s :: rest => (wordExpr? s).bind fun e => membersOf e rest
  | _, .quoted s :: rest => membersOf (.literal (.string s)) rest
  | _, .number n :: rest => membersOf (.literal (.integer n)) rest
  | _, _ => none

end

/-- Read an expression that takes all tokens, in the given way. -/
def wholeExpr? (read : Nat → List Token → ExprReading) (tokens : List Token) : Option Expr :=
  match read (16 * tokens.length + 16) tokens with
  | some (e, []) => some e
  | _ => none

/-! ## Blocks -/

/-- Names that a loop cannot give to its items. -/
def reservedNames : List String :=
  ["true", "True", "false", "False", "none", "None", "loop", "self"]

/-- The tags that end a block or its first part. -/
def closingWords : List String := ["else", "elif", "endif", "endfor"]

/-- Nodes that were read, and the tag that ended them with what follows it. -/
abbrev NodesReading := Option (List Node × Option (List Token × List Chunk))

mutual

/-- Read nodes up to a tag that ends a block, or up to the end. -/
def nodesFrom : Nat → List Chunk → NodesReading
  | 0, _ => none
  | _, [] => some ([], none)
  | fuel + 1, .text cs :: rest =>
    (nodesFrom fuel rest).map fun found =>
      if cs = [] then found else (.text (String.ofList cs) :: found.1, found.2)
  | fuel + 1, .output tokens :: rest =>
    match wholeExpr? choiceFrom tokens, nodesFrom fuel rest with
    | some e, some found => some (.output e :: found.1, found.2)
    | _, _ => none
  | fuel + 1, .tag tokens :: rest =>
    match tokens with
    | .word "if" :: condition =>
      match branchFrom fuel condition rest with
      | none => none
      | some (node, rest) => (nodesFrom fuel rest).map fun found => (node :: found.1, found.2)
    | .word "for" :: .word item :: .word "in" :: items =>
      match loopFrom fuel item items rest with
      | none => none
      | some (node, rest) => (nodesFrom fuel rest).map fun found => (node :: found.1, found.2)
    | .word s :: _ => if closingWords.contains s then some ([], some (tokens, rest)) else none
    | _ => none

/-- Read a branch after the condition of its tag. -/
def branchFrom : Nat → List Token → List Chunk → Option (Node × List Chunk)
  | 0, _, _ => none
  | fuel + 1, condition, chunks =>
    match wholeExpr? choiceFrom condition, nodesFrom fuel chunks with
    | some c, some (yes, some ([.word "endif"], rest)) => some (.branch c yes [], rest)
    | some c, some (yes, some ([.word "else"], rest)) =>
      match nodesFrom fuel rest with
      | some (no, some ([.word "endif"], rest)) => some (.branch c yes no, rest)
      | _ => none
    | some c, some (yes, some (.word "elif" :: condition, rest)) =>
      (branchFrom fuel condition rest).map fun found => (.branch c yes [found.1], found.2)
    | _, _ => none

/-- Read a loop after the value of its tag. -/
def loopFrom : Nat → String → List Token → List Chunk → Option (Node × List Chunk)
  | 0, _, _, _ => none
  | fuel + 1, item, items, chunks =>
    if reservedNames.contains item then
      none
    else
      match wholeExpr? disjunctionFrom items, nodesFrom fuel chunks with
      | some e, some (body, some ([.word "endfor"], rest)) => some (.loop item e body [], rest)
      | some e, some (body, some ([.word "else"], rest)) =>
        match nodesFrom fuel rest with
        | some (empty, some ([.word "endfor"], rest)) => some (.loop item e body empty, rest)
        | _ => none
      | _, _ => none

end

/-- The nodes of a template. -/
def parse? (source : String) : Option (List Node) :=
  match chunksOf? source with
  | none => none
  | some chunks =>
    match nodesFrom (2 * chunks.length + 2) chunks with
    | some (nodes, none) => some nodes
    | _ => none

end Template
end GormForge
