import GormForge.Template.Node

/-!
# Rendering templates

**Input.**  A template and the values of its names.

**Algorithm.**  Expressions are evaluated from the outside in, so that what a condition does
not select is never looked at.  A loop sees its item and its progress as further names.

**Results.**  `render` gives the text of a template, nothing if an undefined value is put
out, tested, searched for members or looped over.
-/

namespace GormForge
namespace Template

/-- The values of names, the innermost first. -/
abbrev Scope := List (String × Value)

namespace Expr

/-- The value of an expression. -/
def eval (scope : Scope) : Expr → Option Value
  | literal v => some v
  | name s => some ((scope.lookup s).getD (.undefined false))
  | member e a => (e.eval scope).bind (Value.member? a)
  | join l r =>
    match l.eval scope, r.eval scope with
    | some v, some w => some (.string (v.text ++ w.text))
    | _, _ => none
  | equal l r =>
    match l.eval scope, r.eval scope with
    | some v, some w => some (.boolean (v.same w))
    | _, _ => none
  | unequal l r =>
    match l.eval scope, r.eval scope with
    | some v, some w => some (.boolean !(v.same w))
    | _, _ => none
  | negate e => ((e.eval scope).bind Value.isTruthy?).map fun b => .boolean !b
  | both l r =>
    match l.eval scope with
    | none => none
    | some v =>
      match v.isTruthy? with
      | none => none
      | some true => r.eval scope
      | some false => some v
  | either l r =>
    match l.eval scope with
    | none => none
    | some v =>
      match v.isTruthy? with
      | none => none
      | some true => some v
      | some false => r.eval scope
  | choose v c none =>
    match (c.eval scope).bind Value.isTruthy? with
    | none => none
    | some true => v.eval scope
    | some false => some (.undefined true)
  | choose v c (some o) =>
    match (c.eval scope).bind Value.isTruthy? with
    | none => none
    | some true => v.eval scope
    | some false => o.eval scope

end Expr

/-- What a loop knows about its progress at item `index` of `count`. -/
def progress (index count : Nat) : Value :=
  .record [
    ("first", .boolean (index = 0)), ("index", .integer (index + 1)),
    ("index0", .integer index), ("last", .boolean (index + 1 = count)),
    ("length", .integer count), ("revindex", .integer (count - index : Nat)),
    ("revindex0", .integer (count - index - 1 : Nat))]

mutual

/-- The text of a part of a template. -/
def Node.render (scope : Scope) : Node → Option String
  | .text s => some s
  | .output e => (e.eval scope).bind Value.shown
  | .branch c yes no =>
    match (c.eval scope).bind Value.isTruthy? with
    | none => none
    | some true => renderAll scope yes
    | some false => renderAll scope no
  | .loop item items body empty =>
    match (items.eval scope).bind Value.items? with
    | none => none
    | some [] => renderAll scope empty
    | some values =>
      (values.zipIdx.mapM fun entry =>
        renderAll ((item, entry.1) :: ("loop", progress entry.2 values.length) :: scope) body).map
          String.join

/-- The text of a template. -/
def renderAll (scope : Scope) : List Node → Option String
  | [] => some ""
  | node :: rest =>
    match node.render scope, renderAll scope rest with
    | some s, some t => some (s ++ t)
    | _, _ => none

end

end Template
end GormForge
