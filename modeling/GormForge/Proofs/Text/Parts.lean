import Mathlib.Data.List.Basic
import Mathlib.Tactic.Common

/-!
# Parts of a text

**Results.**
* `not_of_mem_splitOnP`: no part between separators holds a separator.
* `flatten_splitOnP`: the parts hold everything else, in its order.
-/

namespace GormForge
namespace Text

variable {α : Type}
variable {p : α → Bool}
variable {xs part : List α}
variable {x : α}

/-- No part between separators holds a separator. -/
theorem not_of_mem_splitOnP
    (h : part ∈ xs.splitOnP p)
    (hx : x ∈ part) :
    p x = false := by
  induction xs generalizing part with
  | nil =>
      rw [List.splitOnP_nil, List.mem_singleton] at h
      simp [h] at hx
  | cons y ys ih =>
      rw [List.splitOnP_cons_eq_if_modifyHead] at h
      split at h
      · rcases List.mem_cons.mp h with rfl | h
        · cases hx
        · exact ih h hx
      · next hy =>
          obtain ⟨first, rest, hparts⟩ := List.exists_cons_of_ne_nil (List.splitOnP_ne_nil p ys)
          rw [hparts, List.modifyHead_cons] at h
          rw [hparts] at ih
          rcases List.mem_cons.mp h with rfl | h
          · rcases List.mem_cons.mp hx with rfl | hx
            · simpa using hy
            · exact ih (List.mem_cons_self ..) hx
          · exact ih (List.mem_cons_of_mem _ h) hx

/-- The parts between separators hold everything else, in its order. -/
theorem flatten_splitOnP
    (p : α → Bool)
    (xs : List α) :
    (xs.splitOnP p).flatten = xs.filter fun x => !p x := by
  induction xs with
  | nil => simp
  | cons x xs ih =>
      obtain ⟨first, rest, hparts⟩ := List.exists_cons_of_ne_nil (List.splitOnP_ne_nil p xs)
      rw [hparts] at ih
      rw [List.splitOnP_cons_eq_if_modifyHead, hparts]
      cases hx : p x with
      | true => simpa [hx] using ih
      | false => simpa [hx] using ih

theorem notMem_of_mem_splitOn
    [BEq α]
    [LawfulBEq α]
    (h : part ∈ xs.splitOn x) :
    x ∉ part := by
  intro hx
  rw [List.splitOn_eq_splitOnP] at h
  simpa using not_of_mem_splitOnP h hx

end Text
end GormForge
