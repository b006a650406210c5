import GormForge.Proofs.FileTree.Directories

/-!
# Files in a directory

Paths that end in the name of a file in a directory.

**Results.**
* `Path.parent?_child`: all files in a directory have the same path above them.
* `resolve_child`: a file in a directory lies at the location of the directory followed by its
  name.
-/

namespace GormForge
namespace Path

/-- A name that stands for a node in a directory. -/
structure IsName (name : String) : Prop where
  noSlash : '/' ∉ name.toList
  notIdle : isIdle name.toList = false
  notUp : name.toList ≠ ['.', '.']

instance (name : String) : Decidable (IsName name) :=
  decidable_of_iff ('/' ∉ name.toList ∧ isIdle name.toList = false ∧ name.toList ≠ ['.', '.'])
    ⟨fun ⟨hslash, hidle, hup⟩ => ⟨hslash, hidle, hup⟩, fun h => ⟨h.noSlash, h.notIdle, h.notUp⟩⟩

/-- The segments that come before the name of a file in a directory. -/
def stem (base : Path) : List (List Char) :=
  if base.text.isEmpty then []
  else if base.endsInSlash then base.segments.dropLast
  else base.segments

variable {base : Path}
variable {name : String}

theorem IsName.ne_nil
    (h : IsName name) :
    name.toList ≠ [] := by
  intro hnil
  have hidle := h.notIdle
  simp [isIdle, hnil] at hidle

theorem isAbsolute_of_noSlash
    (h : '/' ∉ name.toList) :
    isAbsolute ⟨name⟩ = false := by
  unfold isAbsolute
  cases hname : name.toList with
  | nil => rfl
  | cons c cs =>
      rw [hname] at h
      simpa using fun hc => h (by simp [hc])

/-- The text of a path to a file in a directory. -/
theorem toList_child
    (base : Path)
    (h : '/' ∉ name.toList) :
    ∃ lead,
      (base.child name).text.toList = lead ++ name.toList ∧
        ((base.text.isEmpty = true ∧ lead = []) ∨
          (base.text.isEmpty = false ∧ base.endsInSlash = true ∧ lead = base.text.toList) ∨
          (base.text.isEmpty = false ∧ base.endsInSlash = false ∧
            lead = base.text.toList ++ ['/'])) := by
  unfold child join
  simp only [isAbsolute_of_noSlash h]
  by_cases hempty : base.text.isEmpty
  · refine ⟨[], ?_, Or.inl ⟨hempty, rfl⟩⟩
    have htext : base.text = "" := by simpa using hempty
    simp [htext]
  · by_cases hslash : base.endsInSlash
    · exact ⟨base.text.toList, by simp [hempty, hslash], Or.inr (Or.inl
        ⟨by simpa using hempty, hslash, rfl⟩)⟩
    · exact ⟨base.text.toList ++ ['/'], by simp [hempty, hslash], Or.inr (Or.inr
        ⟨by simpa using hempty, by simpa using hslash, rfl⟩)⟩

theorem segments_child
    (h : '/' ∉ name.toList) :
    (base.child name).segments = base.stem ++ [name.toList] := by
  obtain ⟨lead, htext, hlead⟩ := toList_child base h
  unfold segments stem
  rw [htext]
  rcases hlead with ⟨hempty, rfl⟩ | ⟨hempty, hslash, rfl⟩ | ⟨hempty, hslash, rfl⟩
  · simp [hempty, List.splitOn_eq_singleton h]
  · have hlast : base.text.toList.getLast? = some '/' := by
      simpa [endsInSlash] using hslash
    obtain ⟨init, hinit⟩ := List.getLast?_eq_some_iff.mp hlast
    simp only [hempty, hslash, segments, hinit]
    rw [List.append_assoc, List.singleton_append, List.splitOn_append_cons_self,
      List.splitOn_append_cons_self, List.splitOn_eq_singleton h]
    simp
  · simp only [hempty, hslash, segments]
    rw [List.append_assoc, List.singleton_append, List.splitOn_append_cons_self,
      List.splitOn_eq_singleton h]
    simp

theorem isAbsolute_child
    (h : '/' ∉ name.toList) :
    (base.child name).isAbsolute = base.isAbsolute := by
  obtain ⟨lead, htext, hlead⟩ := toList_child base h
  unfold isAbsolute
  rw [htext]
  rcases hlead with ⟨hempty, rfl⟩ | ⟨hempty, -, rfl⟩ | ⟨hempty, -, rfl⟩
  · have hbase : base.text = "" := by simpa using hempty
    have hname := isAbsolute_of_noSlash h
    unfold isAbsolute at hname
    rw [List.nil_append, hname, hbase]
    rfl
  all_goals
    have hne : base.text.toList ≠ [] := by simpa using hempty
    obtain ⟨c, cs, hcs⟩ := List.exists_cons_of_ne_nil hne
    simp [hcs]

theorem isEmpty_text_child
    (h : IsName name) :
    (base.child name).text.isEmpty = false := by
  obtain ⟨lead, htext, -⟩ := toList_child base h.noSlash
  have hne : (base.child name).text.toList ≠ [] := by
    rw [htext]
    simp [h.ne_nil]
  simpa using hne

theorem endsInSlash_child
    (h : IsName name) :
    (base.child name).endsInSlash = false := by
  obtain ⟨lead, htext, -⟩ := toList_child base h.noSlash
  unfold endsInSlash
  rw [htext, List.getLast?_append_of_ne_nil _ h.ne_nil]
  rw [List.getLast?_eq_some_getLast h.ne_nil]
  have hmem := List.getLast_mem h.ne_nil
  have hlast : name.toList.getLast h.ne_nil ≠ '/' := by
    intro hc
    rw [hc] at hmem
    exact h.noSlash hmem
  simpa using hlast

/-- All files in a directory have the same paths above them. -/
theorem parents_child
    (h : IsName name) :
    (base.child name).parents =
      if base.stem = [] then [⟨""⟩] else upward base.stem.reverse := by
  unfold parents
  rw [isEmpty_text_child h, segments_child h.noSlash, List.reverse_append]
  cases hstem : base.stem.reverse with
  | nil =>
      have hnil : base.stem = [] := by simpa using hstem
      simp [upward, hnil, h.ne_nil]
  | cons segment rest =>
      have hne : base.stem ≠ [] := by
        intro hnil
        simp [hnil] at hstem
      simp [upward, hne, h.notIdle]

theorem parent?_child
    {other : String}
    (h : IsName name)
    (hother : IsName other) :
    (base.child name).parent? = (base.child other).parent? := by
  unfold parent?
  rw [parents_child h, parents_child hother]

end Path

namespace FileTree

variable {tree : FileTree}
variable {base : Path}
variable {name : String}
variable {location : Location}

theorem startOf_child
    (hname : Path.IsName name)
    (tree : FileTree)
    (base : Path) :
    tree.startOf (base.child name) = tree.startOf base := by
  simp [startOf, Path.isAbsolute_child hname.noSlash]

/-- A file in a directory lies at the location of the directory followed by its name. -/
theorem resolve_child
    (hname : Path.IsName name)
    (h : tree.resolve (base.child name) = .ok location) :
    ∃ directory,
      tree.walk (tree.startOf base) base.stem = .ok directory ∧
        tree.get? directory = some .directory ∧
        location = directory ++ [name] := by
  unfold resolve at h
  split at h
  · cases h
  · rw [Path.segments_child hname.noSlash, walk_append, startOf_child hname] at h
    split at h
    · cases h
    · next directory hwalk =>
        refine ⟨directory, hwalk, ?_⟩
        simp only [walk, requireDirectory, step, hname.notIdle, hname.notUp] at h
        split at h
        · cases h
        · next hreq =>
            split at hreq
            · next hdir =>
                refine ⟨hdir, ?_⟩
                split at h
                · cases h
                · next hstep =>
                    cases h
                    simp only [Bool.false_eq_true, if_false] at hstep
                    split at hstep <;> cases hstep
                    simp
            · cases hreq
            · cases hreq

/-- A path to a file in a directory leads to a location that ends in the name of the file. -/
theorem destination_child
    (hname : Path.IsName name)
    (h : tree.destination (base.child name) = .ok location) :
    ∃ directory,
      follow (tree.startOf base) base.stem = .ok directory ∧ location = directory ++ [name] := by
  unfold destination at h
  rw [Path.segments_child hname.noSlash, follow_append, startOf_child hname] at h
  split at h
  · cases h
  · next directory hfollow =>
      refine ⟨directory, hfollow, ?_⟩
      simp only [follow, step, hname.notIdle, hname.notUp, Bool.false_eq_true, if_false] at h
      split at h
      · cases h
      · next hstep =>
          split at hstep <;> cases hstep
          cases h
          simp

/-- Where a file in a directory lies depends on where the directory lies only. -/
theorem resolve_child_congr
    {other : FileTree}
    {directory : Location}
    (hname : Path.IsName name)
    (hwalk : tree.walk (tree.startOf base) base.stem = .ok directory)
    (hdir : tree.get? directory = some .directory)
    (hwalk' : other.walk (other.startOf base) base.stem = .ok directory)
    (hdir' : other.get? directory = some .directory) :
    tree.resolve (base.child name) = other.resolve (base.child name) := by
  unfold resolve
  cases checkText (base.child name) with
  | error e => rfl
  | ok =>
      simp only [startOf_child hname, Path.segments_child hname.noSlash, walk_append, hwalk, hwalk',
        walk, requireDirectory, hdir, hdir']

end FileTree
end GormForge
