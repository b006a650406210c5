/-!
# Keyed lists

Association lists that keep the order in which their keys were first put.

**Results.**  `get?_put` says that a put changes the value of its own key only, and
`keys_put` that a known key keeps its place.
-/

namespace GormForge
namespace Keyed

universe u v

variable {K : Type u}
variable {V : Type v}
variable [DecidableEq K]

/-- The value of a key. -/
def get? (key : K) : List (K × V) → Option V
  | [] => none
  | (k, v) :: rest => if k = key then some v else get? key rest

/-- Give a key a value, in place if it has one, at the end otherwise. -/
def put (key : K) (value : V) : List (K × V) → List (K × V)
  | [] => [(key, value)]
  | (k, v) :: rest => if k = key then (k, value) :: rest else (k, v) :: put key value rest

/-- Forget a key. -/
def erase (key : K) (entries : List (K × V)) : List (K × V) :=
  entries.filter fun entry => entry.1 ≠ key

/-- The keys in order. -/
def keys (entries : List (K × V)) : List K :=
  entries.map Prod.fst

omit [DecidableEq K] in
@[simp] theorem keys_nil :
    keys ([] : List (K × V)) = [] := by
  rfl

@[simp] theorem get?_put
    (key other : K)
    (value : V)
    (entries : List (K × V)) :
    get? other (put key value entries) =
      if key = other then some value else get? other entries := by
  induction entries with
  | nil => simp [put, get?]
  | cons entry rest ih =>
      obtain ⟨k, v⟩ := entry
      by_cases h : k = key <;> by_cases ho : k = other <;> grind [put, get?]

@[simp] theorem keys_put
    (key : K)
    (value : V)
    (entries : List (K × V)) :
    keys (put key value entries) =
      if key ∈ keys entries then keys entries else keys entries ++ [key] := by
  induction entries with
  | nil => simp [put, keys]
  | cons entry rest ih =>
      obtain ⟨k, v⟩ := entry
      by_cases h : k = key <;> grind [put, keys]

theorem nodup_keys_put
    (key : K)
    (value : V)
    {entries : List (K × V)}
    (h : (keys entries).Nodup) :
    (keys (put key value entries)).Nodup := by
  rw [keys_put]
  split
  · exact h
  · next hnew =>
      rw [List.nodup_append]
      refine ⟨h, by simp, fun k hk other hother heq => ?_⟩
      rw [List.mem_singleton.mp hother] at heq
      rw [heq] at hk
      exact hnew hk

theorem mem_of_mem_put
    {key : K}
    {value : V}
    {entries : List (K × V)}
    {entry : K × V}
    (h : entry ∈ put key value entries) :
    entry = (key, value) ∨ entry ∈ entries := by
  induction entries with
  | nil => exact Or.inl (List.mem_singleton.mp h)
  | cons first rest ih =>
      obtain ⟨k, v⟩ := first
      unfold put at h
      split at h
      · next hk =>
          rcases List.mem_cons.mp h with rfl | hrest
          · exact Or.inl (by rw [hk])
          · exact Or.inr (List.mem_cons_of_mem _ hrest)
      · rcases List.mem_cons.mp h with rfl | hrest
        · exact Or.inr (List.mem_cons_self ..)
        · exact (ih hrest).imp_right (List.mem_cons_of_mem _)

theorem mem_of_get?_eq_some
    {k : K}
    {v : V}
    {entries : List (K × V)}
    (h : get? k entries = some v) :
    (k, v) ∈ entries := by
  induction entries with
  | nil => cases h
  | cons first rest ih =>
      obtain ⟨k', v'⟩ := first
      unfold get? at h
      split at h
      · next heq =>
          cases h
          rw [heq]
          exact List.mem_cons_self ..
      · exact List.mem_cons_of_mem _ (ih h)

theorem get?_ne_none_of_mem
    {entry : K × V}
    {entries : List (K × V)}
    (h : entry ∈ entries) :
    get? entry.1 entries ≠ none := by
  induction entries with
  | nil => cases h
  | cons first rest ih =>
      obtain ⟨k, v⟩ := first
      unfold get?
      split
      · simp
      · next hne =>
          rcases List.mem_cons.mp h with rfl | hrest
          · exact absurd rfl hne
          · exact ih hrest

theorem get?_eq_some_of_mem
    {k : K}
    {v : V}
    {entries : List (K × V)}
    (hnodup : (keys entries).Nodup)
    (h : (k, v) ∈ entries) :
    get? k entries = some v := by
  induction entries with
  | nil => cases h
  | cons first rest ih =>
      obtain ⟨hnew, hrest⟩ := List.nodup_cons.mp hnodup
      unfold get?
      rcases List.mem_cons.mp h with rfl | hmem
      · rw [if_pos rfl]
      · split
        · next heq =>
            rw [heq] at hnew
            exact absurd (List.mem_map.mpr ⟨_, hmem, rfl⟩) hnew
        · exact ih hrest hmem

/-- Giving a key the value that it has changes nothing. -/
theorem put_of_get?_eq_some
    {key : K}
    {value : V}
    {entries : List (K × V)}
    (h : get? key entries = some value) :
    put key value entries = entries := by
  induction entries with
  | nil => cases h
  | cons first rest ih =>
      obtain ⟨k, v⟩ := first
      unfold get? at h
      unfold put
      split at h
      · next hk =>
          cases h
          rw [if_pos hk]
      · next hk => rw [if_neg hk, ih h]

end Keyed
end GormForge
