import GormForge.Template.Value

/-!
# Templates

Templates as lists of nodes over a small language of expressions.

**Results.**  `source` writes a template the way it is read back: block tags stand on lines
of their own, because a line break right after a block tag is not part of the text.
-/

namespace GormForge
namespace Template

/-- An expression. -/
inductive Expr where
  | literal (v : Value)
  | name (s : String)
  | member (e : Expr) (name : String)
  | join (left right : Expr)
  | equal (left right : Expr)
  | unequal (left right : Expr)
  | negate (e : Expr)
  | both (left right : Expr)
  | either (left right : Expr)
  /-- One of two values; without the second one, a silent undefined value. -/
  | choose (value condition : Expr) (otherwise : Option Expr)
  deriving Repr, Inhabited

/-- A part of a template. -/
inductive Node where
  | text (s : String)
  | output (e : Expr)
  | branch (condition : Expr) (yes no : List Node)
  | loop (item : String) (items : Expr) (body empty : List Node)
  deriving Repr, Inhabited

namespace Expr

/-- How tightly the outermost operator of an expression binds. -/
def level : Expr → Nat
  | choose _ _ _ => 0
  | either _ _ => 1
  | both _ _ => 2
  | negate _ => 3
  | equal _ _ => 4
  | unequal _ _ => 4
  | join _ _ => 5
  | literal _ => 6
  | name _ => 6
  | member _ _ => 6

/-- A text in parentheses if `weak` holds. -/
def wrapped (weak : Bool) (s : String) : String :=
  if weak then "(" ++ s ++ ")" else s

/-- The source of an expression. -/
def source : Expr → String
  | literal v => v.inner
  | name s => s
  | member e a => wrapped (e.level < 6) e.source ++ "." ++ a
  | join l r => wrapped (l.level < 5) l.source ++ " ~ " ++ wrapped (r.level < 6) r.source
  | equal l r => wrapped (l.level < 4) l.source ++ " == " ++ wrapped (r.level < 5) r.source
  | unequal l r => wrapped (l.level < 4) l.source ++ " != " ++ wrapped (r.level < 5) r.source
  | negate e => "not " ++ wrapped (e.level < 3) e.source
  | both l r => wrapped (l.level < 2) l.source ++ " and " ++ wrapped (r.level < 3) r.source
  | either l r => wrapped (l.level < 1) l.source ++ " or " ++ wrapped (r.level < 2) r.source
  | choose v c none => wrapped (v.level < 1) v.source ++ " if " ++ wrapped (c.level < 1) c.source
  | choose v c (some o) =>
      wrapped (v.level < 1) v.source ++ " if " ++ wrapped (c.level < 1) c.source ++
        " else " ++ o.source

end Expr

/-- A block tag on a line of its own. -/
def tagLine (body : String) : String :=
  "\x7b% " ++ body ++ " %\x7d\n"

mutual

/-- The source of a part of a template. -/
def Node.source : Node → String
  | .text s => s
  | .output e => "\x7b\x7b " ++ e.source ++ " \x7d\x7d"
  | .branch c yes no =>
      tagLine ("if " ++ c.source) ++ sourceOf yes ++ elseSource no ++ tagLine "endif"
  | .loop x items body empty =>
      tagLine ("for " ++ x ++ " in " ++ items.source) ++ sourceOf body ++ elseSource empty ++
        tagLine "endfor"

/-- The source of a template. -/
def sourceOf : List Node → String
  | [] => ""
  | node :: rest => node.source ++ sourceOf rest

/-- The source of an alternative, which may be missing. -/
def elseSource : List Node → String
  | [] => ""
  | node :: rest => tagLine "else" ++ (node.source ++ sourceOf rest)

end

end Template
end GormForge
