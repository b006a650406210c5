import GormForge.Proofs.FileTree.Refill
import GormForge.Template.Library

/-!
# Templates in a directory

When a template that may be read from a directory reads the same at different times.

**Results.**
* `overrideOf?_between`: a template that reads the same before and after reads the same at any
  time in between.
* `overrideOf?_refills`: a template reads the same after other files were written.
* `Apart`: a directory of templates in which a generation run writes nothing.
-/

namespace GormForge

open FileTree

namespace Template
namespace Library

variable {writes : Location → Prop}
variable {before middle after : FileTree}
variable {library : Library}
variable {kind : Kind}

/-- A file that no step writes and that reads the same in the end is read in between as it
was in the beginning. -/
theorem overrideOf?_between
    (hfirst : Grows writes before middle)
    (hlast : Grows writes middle after)
    (hkeep : ∀ path location, library.directory? = some path →
      middle.resolve (path.child kind.key) = .ok location → ¬ writes location)
    (hsame : library.overrideOf? after kind = library.overrideOf? before kind) :
    library.overrideOf? middle kind = library.overrideOf? before kind := by
  cases library with
  | builtin => rfl
  | directory path engine =>
      simp only [overrideOf?, readText, lookup] at hsame ⊢
      rcases hfirst.resolve (path.child kind.key) with hmiss | hsee
      · -- nothing was there before, so nothing is there after
        rw [hmiss] at hsame ⊢
        rcases hlast.resolve (path.child kind.key) with hmiss' | hsee
        · rw [hmiss']
        · rw [hsee] at hsame
          cases hres : middle.resolve (path.child kind.key) with
          | error e =>
              rw [hres] at hsame
              exact hsame
          | ok location =>
              rw [hres] at hsame
              simp only at hsame ⊢
              cases hnode : after.get? location with
              | none => simp [hlast.eq_none hnode]
              | some node =>
                  rw [hnode] at hsame
                  rcases node with _ | ⟨_ | _⟩ <;> cases hsame
      · rw [hsee]
        cases hres : before.resolve (path.child kind.key) with
        | error e => rfl
        | ok location =>
            rw [hres] at hsee hsame
            rw [hlast.resolve_ok hsee] at hsame
            simp only at hsame ⊢
            rcases hfirst.elsewhere (hkeep path location rfl hsee) with heq | ⟨hnone, hmade⟩
            · rw [heq]
            · -- a directory in its place could not be read after
              rw [hnone, hlast.directory hmade] at hsame
              cases hsame

/-- A template reads the same after other files were written, as long as none of them stands in
the way. -/
theorem overrideOf?_refills
    (hrefills : Refills writes before after)
    (hkeep : ∀ path location, library.directory? = some path →
      before.resolve (path.child kind.key) = .ok location → ¬ writes location)
    (hfree : ∀ path, library.directory? = some path →
      after.lookup (path.child kind.key) ≠ .error .notADirectory) :
    library.overrideOf? after kind = library.overrideOf? before kind := by
  cases library with
  | builtin => rfl
  | directory path engine =>
      have hsame : after.lookup (path.child kind.key) = before.lookup (path.child kind.key) := by
        unfold lookup
        cases hres : before.resolve (path.child kind.key) with
        | ok location =>
            rw [hrefills.resolve_ok_iff.mpr hres]
            simp only [hrefills.get?_eq (hkeep path location rfl hres)]
        | error e =>
            rcases hrefills.resolve (path.child kind.key) with hmiss | heq
            · rw [hmiss] at hres
              cases hres
              rcases hrefills.resolve_notFound hmiss with hmiss' | hfile
              · rw [hmiss']
              · exact absurd (by simp [lookup, hfile]) (hfree path rfl)
            · rw [heq, hres]
      simp only [overrideOf?, readText, hsame]

/-- Templates that do not lie right above a directory, nor below a file. -/
structure Apart (library : Library) (tree : FileTree) (directory : Path) : Prop where
  beside : ∀ {path place location},
    library.directory? = some path →
      tree.destination path = .ok place →
        tree.destination directory = .ok location →
          place ≠ location.dropLast
  clear : ∀ {path} (kind : Kind),
    library.directory? = some path →
      tree.lookup (path.child kind.key) ≠ .error .notADirectory

end Library
end Template
end GormForge
