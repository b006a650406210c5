import GormForge.Proofs.FileTree.Children
import GormForge.Proofs.Text.Parts

/-!
# The path above the files in a directory

The path above a file in a directory is the path of the directory without the idle segments
at its end.

**Results.**
* `walk_above`, `follow_above`: it leads where the directory lies.
* `makeParents_child`: the directories above a file in a directory that exists are there.
-/

namespace GormForge
namespace Path

variable {base : Path}

/-! ## Segments -/

theorem segments_ne_nil
    (p : Path) :
    p.segments ≠ [] :=
  List.splitOn_ne_nil _ _

theorem noSlash_of_mem_segments
    {p : Path}
    {segment : List Char}
    (h : segment ∈ p.segments) :
    '/' ∉ segment :=
  Text.notMem_of_mem_splitOn h

theorem segments_ofSegments
    {parts : List (List Char)}
    (hne : parts ≠ [])
    (h : ∀ part ∈ parts, '/' ∉ part) :
    (ofSegments parts).segments = parts := by
  unfold ofSegments segments
  rw [String.toList_ofList]
  exact List.splitOn_intercalate '/' h hne

/-- A path is absolute if an empty segment comes before others. -/
theorem isAbsolute_iff
    {p : Path} :
    p.isAbsolute = true ↔ ∃ rest, rest ≠ [] ∧ p.segments = [] :: rest := by
  unfold isAbsolute segments
  cases hp : p.text.toList with
  | nil => simp
  | cons c cs =>
      rw [List.splitOn_cons_eq_if_modifyHead]
      by_cases hc : c = '/'
      · simp [hc, List.splitOn_ne_nil]
      · obtain ⟨first, rest, hparts⟩ := List.exists_cons_of_ne_nil (List.splitOn_ne_nil '/' cs)
        simp [hc, hparts]

theorem isEmpty_text_iff
    {p : Path} :
    p.text.isEmpty = true ↔ p.segments = [[]] := by
  unfold segments
  cases hp : p.text.toList with
  | nil =>
      have htext : p.text = "" := by simpa using hp
      simp [htext]
  | cons c cs =>
      have htext : p.text ≠ "" := by
        intro h
        simp [h] at hp
      rw [List.splitOn_cons_eq_if_modifyHead]
      by_cases hc : c = '/'
      · simp [htext, hc, List.splitOn_ne_nil]
      · obtain ⟨first, rest, hparts⟩ := List.exists_cons_of_ne_nil (List.splitOn_ne_nil '/' cs)
        simp [htext, hc, hparts]

theorem segments_of_endsInSlash
    {p : Path}
    (h : p.endsInSlash = true) :
    ∃ front, front ≠ [] ∧ p.segments = front ++ [[]] := by
  have hlast : p.text.toList.getLast? = some '/' := by simpa [endsInSlash] using h
  obtain ⟨init, hinit⟩ := List.getLast?_eq_some_iff.mp hlast
  refine ⟨init.splitOn '/', List.splitOn_ne_nil _ _, ?_⟩
  unfold segments
  rw [hinit, List.splitOn_append_cons_self]
  rfl

/-- The segments of a directory come before the name of a file, apart from an empty one at the
end. -/
theorem segments_eq_stem
    (h : base.text.isEmpty = false) :
    base.stem ≠ [] ∧ (base.segments = base.stem ∨ base.segments = base.stem ++ [[]]) := by
  unfold stem
  rw [h]
  by_cases hslash : base.endsInSlash = true
  · obtain ⟨front, hne, hfront⟩ := segments_of_endsInSlash hslash
    simp [hslash, hfront, hne]
  · simp [hslash, segments_ne_nil]

theorem stem_eq_nil_iff :
    base.stem = [] ↔ base.text.isEmpty = true := by
  cases h : base.text.isEmpty with
  | true => simp [stem, h]
  | false => simp [(segments_eq_stem h).1]

theorem noSlash_of_mem_stem
    {segment : List Char}
    (h : segment ∈ base.stem) :
    '/' ∉ segment := by
  cases hempty : base.text.isEmpty with
  | true =>
      rw [stem_eq_nil_iff.mpr hempty] at h
      cases h
  | false =>
      apply noSlash_of_mem_segments
      rcases (segments_eq_stem hempty).2 with heq | heq <;> rw [heq]
      · exact h
      · exact List.mem_append_left _ h

/-- A directory is given by an absolute path if its first segment is empty. -/
theorem isAbsolute_eq_head
    (h : base.stem ≠ []) :
    base.isAbsolute = (base.stem.head? == some []) := by
  have hempty : base.text.isEmpty = false := by
    simpa [stem_eq_nil_iff] using h
  obtain ⟨first, rest, hstem⟩ := List.exists_cons_of_ne_nil h
  rw [hstem, Bool.eq_iff_iff, isAbsolute_iff]
  rcases (segments_eq_stem hempty).2 with heq | heq
  · rw [heq, hstem]
    have hmore : ¬ (first = [] ∧ rest = []) := by
      rintro ⟨rfl, rfl⟩
      have := isEmpty_text_iff.mpr (heq.trans hstem)
      rw [hempty] at this
      cases this
    constructor
    · rintro ⟨_, -, hcons⟩
      cases hcons
      rfl
    · intro hfirst
      obtain rfl : first = [] := by simpa using hfirst
      exact ⟨rest, fun hrest => hmore ⟨rfl, hrest⟩, rfl⟩
  · rw [heq, hstem]
    constructor
    · rintro ⟨_, -, hcons⟩
      cases hcons
      rfl
    · intro hfirst
      obtain rfl : first = [] := by simpa using hfirst
      exact ⟨rest ++ [[]], by simp, rfl⟩

/-! ## The path above -/

/-- The nearest of the paths above the files in a directory. -/
def above (base : Path) : Path :=
  if base.stem = [] then ⟨""⟩ else (upward base.stem.reverse).headD ⟨""⟩

theorem upward_ne_nil
    {parts : List (List Char)}
    (h : parts ≠ []) :
    upward parts ≠ [] := by
  induction parts with
  | nil => exact absurd rfl h
  | cons first rest ih =>
      cases rest with
      | nil =>
          unfold upward
          split <;> simp
      | cons second rest =>
          unfold upward
          split
          · exact ih (by simp)
          · simp

theorem parent?_child_eq
    {name : String}
    (h : IsName name) :
    (base.child name).parent? = some base.above := by
  unfold parent? above
  rw [parents_child h]
  split
  · rfl
  · next hne =>
      obtain ⟨q, rest, hq⟩ := List.exists_cons_of_ne_nil
        (upward_ne_nil (List.reverse_ne_nil_iff.mpr hne))
      rw [hq]
      rfl

/-- Going up leaves out idle segments at the end only. -/
theorem head_upward
    {parts : List (List Char)}
    (h : parts ≠ []) :
    ∃ idle front,
      parts = idle ++ front ∧ (∀ segment ∈ idle, isIdle segment = true) ∧ front ≠ [] ∧
        (upward parts).headD ⟨""⟩ =
          if front = [[]] then ⟨"/"⟩ else ofSegments front.reverse := by
  induction parts with
  | nil => exact absurd rfl h
  | cons first rest ih =>
      cases rest with
      | nil =>
          refine ⟨[], [first], rfl, by simp, by simp, ?_⟩
          unfold upward
          by_cases hfirst : first = [] <;> simp [hfirst]
      | cons second rest =>
          unfold upward
          split
          · next hidle =>
              obtain ⟨idle, front, hparts, hall, hne, hhead⟩ := ih (by simp)
              refine ⟨first :: idle, front, by rw [hparts]; rfl, ?_, hne, hhead⟩
              intro segment hsegment
              rcases List.mem_cons.mp hsegment with rfl | hsegment
              · exact hidle
              · exact hall segment hsegment
          · exact ⟨[], first :: second :: rest, rfl, by simp, by simp, by simp⟩

/-- The segments of the path above, and where it begins. -/
theorem above_eq
    (h : base.stem ≠ []) :
    ∃ front idle,
      base.stem = front ++ idle ∧ (∀ segment ∈ idle, isIdle segment = true) ∧ front ≠ [] ∧
        base.above.isAbsolute = base.isAbsolute ∧
        ((front = [[]] ∧ base.above.segments = [[], []]) ∨ base.above.segments = front) := by
  obtain ⟨idle, front, hparts, hidle, hne, hhead⟩ := head_upward (List.reverse_ne_nil_iff.mpr h)
  have hstem : base.stem = front.reverse ++ idle.reverse := by
    rw [← List.reverse_append, ← hparts, List.reverse_reverse]
  have habove : base.above = if front = [[]] then ⟨"/"⟩ else ofSegments front.reverse := by
    rw [above, if_neg h, hhead]
  refine ⟨front.reverse, idle.reverse, hstem, by simpa using hidle, by simpa using hne, ?_⟩
  rw [isAbsolute_eq_head h, hstem]
  by_cases hroot : front = [[]]
  · subst hroot
    rw [habove]
    exact ⟨rfl, Or.inl ⟨rfl, by decide⟩⟩
  · rw [if_neg hroot] at habove
    have hsegments : base.above.segments = front.reverse := by
      rw [habove]
      refine segments_ofSegments (by simpa using hne) fun part hpart => ?_
      exact noSlash_of_mem_stem (by rw [hstem]; exact List.mem_append_left _ hpart)
    refine ⟨?_, Or.inr hsegments⟩
    rw [Bool.eq_iff_iff, isAbsolute_iff, hsegments]
    obtain ⟨first, rest, hcons⟩ := List.exists_cons_of_ne_nil (List.reverse_ne_nil_iff.mpr hne)
    rw [hcons]
    constructor
    · rintro ⟨_, -, heq⟩
      cases heq
      rfl
    · intro hfirst
      obtain rfl : first = [] := by simpa using hfirst
      refine ⟨rest, fun hrest => hroot ?_, rfl⟩
      rw [hrest] at hcons
      simpa using congrArg List.reverse hcons

theorem isEmpty_text_above
    (h : base.stem ≠ []) :
    base.above.text.isEmpty = false := by
  obtain ⟨front, idle, hstem, -, -, habsolute, hsegments⟩ := above_eq h
  by_contra hempty
  rw [Bool.not_eq_false] at hempty
  have hnil := isEmpty_text_iff.mp hempty
  rcases hsegments with ⟨-, hroot⟩ | hfront
  · rw [hnil] at hroot
    cases hroot
  · -- then the directory would be given by an absolute path
    have htext : base.above.text = "" := by simpa using hempty
    rw [isAbsolute_eq_head h, hstem, ← hfront, hnil, isAbsolute, htext] at habsolute
    simp at habsolute

end Path

namespace FileTree

variable {tree : FileTree}
variable {base : Path}
variable {name : String}
variable {location start : Location}
variable {parts : List (List Char)}

/-- Only the empty path is missing because of its text. -/
theorem checkText_ne_notFound
    {p : Path}
    (h : p.text.isEmpty = false) :
    checkText p ≠ .error .notFound := by
  unfold checkText
  rw [h]
  simp only [Bool.false_eq_true, if_false]
  split
  · simp
  · split <;> simp

/-! ## Idle segments -/

theorem eq_of_walk_idle
    (hidle : ∀ segment ∈ parts, Path.isIdle segment = true)
    (h : tree.walk start parts = .ok location) :
    start = location := by
  induction parts with
  | nil =>
      cases h
      rfl
  | cons segment rest ih =>
      simp only [walk, step, hidle segment (List.mem_cons_self ..), if_true] at h
      split at h
      · cases h
      · exact ih (fun other hother => hidle other (List.mem_cons_of_mem _ hother)) h

theorem follow_idle
    (hidle : ∀ segment ∈ parts, Path.isIdle segment = true)
    (start : Location) :
    follow start parts = .ok start := by
  induction parts with
  | nil => rfl
  | cons segment rest ih =>
      simp only [follow, step, hidle segment (List.mem_cons_self ..), if_true]
      exact ih fun other hother => hidle other (List.mem_cons_of_mem _ hother)

/-- A path leads where the files lie that it holds. -/
theorem destination_eq_follow
    (tree : FileTree)
    (base : Path) :
    tree.destination base = follow (tree.startOf base) base.stem := by
  unfold destination
  cases hempty : base.text.isEmpty with
  | true =>
      rw [Path.stem_eq_nil_iff.mpr hempty, Path.isEmpty_text_iff.mp hempty]
      rfl
  | false =>
      rcases (Path.segments_eq_stem hempty).2 with heq | heq
      · rw [heq]
      · rw [heq, follow_append]
        cases follow (tree.startOf base) base.stem with
        | error e => rfl
        | ok middle => rfl

/-! ## The path above -/

theorem startOf_above
    (tree : FileTree)
    (h : base.stem ≠ []) :
    tree.startOf base.above = tree.startOf base := by
  obtain ⟨_, _, -, -, -, habsolute, -⟩ := Path.above_eq h
  simp [startOf, habsolute]

/-- The path above leads where the directory lies. -/
theorem follow_above
    (tree : FileTree)
    (h : base.stem ≠ []) :
    tree.destination base.above = follow (tree.startOf base) base.stem := by
  obtain ⟨front, idle, hstem, hidle, -, -, hsegments⟩ := Path.above_eq h
  unfold destination
  rw [startOf_above tree h, hstem, follow_append]
  have hfront : follow (tree.startOf base) base.above.segments =
      follow (tree.startOf base) front := by
    rcases hsegments with ⟨rfl, heq⟩ | heq
    · rw [heq]
      rfl
    · rw [heq]
  rw [hfront]
  cases follow (tree.startOf base) front with
  | error e => rfl
  | ok middle => exact (follow_idle hidle middle).symm

/-- The path above is seen as a directory where the directory is. -/
theorem walk_above
    (h : base.stem ≠ [])
    (hwalk : tree.walk (tree.startOf base) base.stem = .ok location)
    (hdir : tree.get? location = some .directory) :
    tree.walk (tree.startOf base.above) base.above.segments = .ok location := by
  obtain ⟨front, idle, hstem, hidle, -, -, hsegments⟩ := Path.above_eq h
  rw [hstem, walk_append] at hwalk
  rw [startOf_above tree h]
  split at hwalk
  · cases hwalk
  · next middle hmiddle =>
      obtain rfl := eq_of_walk_idle hidle hwalk
      rcases hsegments with ⟨rfl, heq⟩ | heq
      · rw [heq, ← List.singleton_append, walk_append, hmiddle]
        exact walk_replicate hdir 1
      · rw [heq, hmiddle]

/-- A directory that exists is not made anew. -/
theorem makeDirectories_above
    (hwalk : tree.walk (tree.startOf base) base.stem = .ok location)
    (hdir : tree.get? location = some .directory)
    (rest : List Path) :
    (tree.makeDirectories (base.above :: rest)).2 = tree := by
  unfold makeDirectories
  split
  · rfl
  · next htext =>
      have hstem : base.stem ≠ [] := by
        intro hstem
        simp [Path.above, hstem] at htext
      have habove := walk_above hstem hwalk hdir
      -- the path may be too long, but it is not missing
      cases hcheck : checkText base.above with
      | error e =>
          have hnew : tree.makeDirectory base.above = .error e := by
            simp [makeDirectory, resolveNew, hcheck]
          rw [hnew]
          cases e with
          | notFound => exact absurd hcheck (checkText_ne_notFound (by simpa using htext))
          | _ =>
              simp only
              split <;> rfl
      | ok =>
          have hres : tree.resolve base.above = .ok location := by
            simp [resolve, hcheck, habove]
          have hexists := makeDirectory_of_isDirectory (isDirectory_iff.mpr ⟨location, hres, hdir⟩)
          rw [hexists]
          simp only
          split <;> rfl

end FileTree

namespace GeneratedFile

open FileTree

variable {tree : FileTree}
variable {base : Path}
variable {name : String}
variable {location : Location}

/-- The directories above a file in a directory that exists are there. -/
theorem makeParents_child
    (hname : Path.IsName name)
    (hwalk : tree.walk (tree.startOf base) base.stem = .ok location)
    (hdir : tree.get? location = some .directory) :
    (makeParents (base.child name) tree).2 = tree := by
  unfold makeParents
  rw [Path.parent?_child_eq hname]
  exact makeDirectories_above hwalk hdir _

end GeneratedFile
end GormForge
