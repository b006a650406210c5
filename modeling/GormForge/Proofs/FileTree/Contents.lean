import GormForge.Proofs.FileTree.Refill

/-!
# Contents of files

What the files of a tree hold, whatever directories there are.

**Results.**
* `Grows.content?`: where nothing is written, the contents stay as they are.
* `content?_place`: a file that is written has its new content, all others keep theirs.
-/

namespace GormForge
namespace FileTree

variable {writes : Location → Prop}
variable {tree before after : FileTree}
variable {location other : Location}
variable {content : Content}

/-- The content of the file at a location. -/
def content? (tree : FileTree) (location : Location) : Option Content :=
  match tree.get? location with
  | some (.file content) => some content
  | _ => none

theorem content?_eq_some_iff :
    tree.content? location = some content ↔ tree.get? location = some (.file content) := by
  unfold content?
  split
  · next h => simp [h]
  · next h => simpa using h content

theorem content?_congr
    (h : after.get? location = before.get? location) :
    after.content? location = before.content? location := by
  unfold content?
  rw [h]

/-- Where nothing is written, the contents stay as they are. -/
theorem Grows.content?
    (h : Grows writes before after)
    (hnot : ¬ writes location) :
    after.content? location = before.content? location := by
  rcases h.elsewhere hnot with heq | ⟨hnone, hmade⟩
  · exact content?_congr heq
  · simp only [FileTree.content?, hnone, hmade]

theorem content?_place
    (hroot : location ≠ []) :
    (tree.place location (.file content)).content? other =
      if location = other then some content else tree.content? other := by
  unfold content?
  rw [get?_place]
  by_cases hsame : location = other
  · subst hsame
    simp [hroot]
  · simp [hsame]

end FileTree
end GormForge
