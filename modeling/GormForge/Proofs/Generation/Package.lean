import GormForge.Generation.Settings
import GormForge.Proofs.FileTree.Parents
import GormForge.Proofs.Naming.Structs
import GormForge.Wiring.Providers

/-!
# Package directories

Where the package of a generation run lies, and where its provider files lie.

**Results.**
* `Path.fileName?_eq_some_iff`: a path ends in a name if only idle segments come behind it.
* `GenerationSettings.exists_base`: the output directory ends in the name of the package.
* `Providers.location_eq`: the provider files lie right above the package.
-/

namespace GormForge
namespace Path

variable {base : Path}
variable {name : String}

/-! ## Texts -/

theorem extend_append
    (base : Path)
    (front back : List Component) :
    base.extend (front ++ back) = (base.extend front).extend back := by
  induction front generalizing base with
  | nil => rfl
  | cons component rest ih => cases component <;> exact ih _

theorem isIdle_nil : isIdle [] = true := by
  rfl

/-- A slash at the end of a path changes neither its meaning nor the paths above it. -/
theorem segments_child_empty
    (h : IsName name) :
    ((base.child name).child "").segments = (base.child name).segments ++ [[]] := by
  have hstem : (base.child name).stem = (base.child name).segments := by
    unfold stem
    rw [isEmpty_text_child h, endsInSlash_child h]
    simp
  rw [segments_child (by simp), hstem]
  rfl

theorem isEmpty_text_child_empty
    (h : IsName name) :
    ((base.child name).child "").text.isEmpty = false := by
  have hnone : '/' ∉ "".toList := by simp
  obtain ⟨lead, htext, hlead⟩ := toList_child (base.child name) hnone
  have hne : (base.child name).text.toList ≠ [] := by
    simpa using isEmpty_text_child h
  rcases hlead with ⟨hempty, -⟩ | ⟨-, -, rfl⟩ | ⟨-, -, rfl⟩
  · rw [isEmpty_text_child h] at hempty
    cases hempty
  all_goals
    have hlist : ((base.child name).child "").text.toList ≠ [] := by
      rw [htext]
      simp [hne]
    simpa using hlist

theorem parents_child_empty
    (h : IsName name) :
    ((base.child name).child "").parents = (base.child name).parents := by
  unfold parents
  rw [isEmpty_text_child h, isEmpty_text_child_empty h, segments_child_empty h,
    List.reverse_append, segments_child h.noSlash, List.reverse_append]
  simp only [List.reverse_singleton, List.singleton_append]
  rw [upward, if_pos isIdle_nil]
  simp

/-- A word is a name. -/
theorem isName_of_isWord
    (h : Go.isWord name = true) :
    IsName name := by
  have hne : name.toList ≠ [] := (Go.isWord_iff.mp h).1
  have hdot : '.' ∉ name.toList := Go.notMem_of_isWord h (by decide)
  refine ⟨Go.notMem_of_isWord h (by decide), ?_, ?_⟩
  · unfold isIdle
    rw [Bool.or_eq_false_iff]
    refine ⟨by simpa using hne, ?_⟩
    simp only [beq_eq_false_iff_ne, ne_eq]
    intro heq
    simp [heq] at hdot
  · intro heq
    simp [heq] at hdot

/-! ## The name at the end -/

variable {segments lead trail : List (List Char)}
variable {last : List Char}

theorem componentOf?_of_isName
    (h : IsName name) :
    componentOf? name.toList = some (.name name) := by
  unfold componentOf?
  simp [h.notIdle, h.notUp]

theorem eq_of_componentOf?
    (h : componentOf? last = some (.name name)) :
    last = name.toList ∧ isIdle last = false ∧ last ≠ ['.', '.'] := by
  unfold componentOf? at h
  split at h
  · cases h
  · next hidle =>
      split at h
      · cases h
      · next hup =>
          cases h
          exact ⟨String.toList_ofList.symm, by simpa using hidle, hup⟩

/-- A list of segments is idle, or has a last segment that is not. -/
theorem idle_or_exists_last
    (segments : List (List Char)) :
    (∀ segment ∈ segments, isIdle segment = true) ∨
      ∃ lead last trail,
        segments = lead ++ last :: trail ∧ isIdle last = false ∧
          ∀ segment ∈ trail, isIdle segment = true := by
  induction segments with
  | nil => exact Or.inl (by simp)
  | cons first rest ih =>
      rcases ih with hrest | ⟨lead, last, trail, rfl, hlast, htrail⟩
      · cases hfirst : isIdle first with
        | false => exact Or.inr ⟨[], first, rest, rfl, hfirst, hrest⟩
        | true => exact Or.inl (List.forall_mem_cons.mpr ⟨hfirst, hrest⟩)
      · exact Or.inr ⟨first :: lead, last, trail, rfl, hlast, htrail⟩

theorem filterMap_of_idle
    (h : ∀ segment ∈ trail, isIdle segment = true) :
    trail.filterMap componentOf? = [] := by
  rw [List.filterMap_eq_nil_iff]
  intro segment hsegment
  simp [componentOf?, h segment hsegment]

/-- Idle segments do not end in a name. -/
theorem getLast?_componentsOf_of_idle
    (h : ∀ segment ∈ segments, isIdle segment = true)
    (name : String) :
    (componentsOf segments).getLast? ≠ some (.name name) := by
  cases segments with
  | nil => simp [componentsOf]
  | cons first rest =>
      obtain ⟨hfirst, hrest⟩ := List.forall_mem_cons.mp h
      simp only [isIdle, Bool.or_eq_true, beq_iff_eq] at hfirst
      rcases hfirst with rfl | rfl
      · cases rest with
        | nil => simp [componentsOf]
        | cons second rest => simp [componentsOf, filterMap_of_idle hrest]
      · simp [componentsOf, filterMap_of_idle hrest]

/-- Of other segments the last one that is not idle decides. -/
theorem getLast?_componentsOf
    (lead : List (List Char))
    (hlast : isIdle last = false)
    (htrail : ∀ segment ∈ trail, isIdle segment = true) :
    (componentsOf (lead ++ last :: trail)).getLast? = componentOf? last := by
  obtain ⟨component, hcomponent⟩ : ∃ component, componentOf? last = some component := by
    by_cases hup : last = ['.', '.']
    · exact ⟨.up, by rw [hup]; rfl⟩
    · exact ⟨.name (String.ofList last), by simp [componentOf?, hlast, hup]⟩
  rw [hcomponent]
  cases lead with
  | nil =>
      have hne : last ≠ [] ∧ last ≠ ['.'] := by simpa [isIdle] using hlast
      rw [List.nil_append, componentsOf]
      · simp [hne.1, hne.2, hcomponent, filterMap_of_idle htrail]
      · rintro rfl
        exact absurd rfl hne.1
  | cons first rest =>
      obtain ⟨front, hfront⟩ : ∃ front, componentsOf (first :: (rest ++ last :: trail)) =
          front ++ (rest ++ last :: trail).filterMap componentOf? := by
        cases first with
        | nil => cases rest <;> exact ⟨_, rfl⟩
        | cons c cs => exact ⟨_, rfl⟩
      rw [List.cons_append, hfront, List.filterMap_append, List.filterMap_cons, hcomponent,
        filterMap_of_idle htrail, ← List.append_assoc]
      simp

theorem fileName?_eq_some_iff_getLast?
    {p : Path} :
    p.fileName? = some name ↔ p.components.getLast? = some (.name name) := by
  unfold fileName?
  split
  · next s hs => simp [hs]
  · next hother => simpa using hother name

/-- A path ends in a name if its last segment that is not idle is that name. -/
theorem fileName?_eq_some_iff
    {p : Path} :
    p.fileName? = some name ↔
      IsName name ∧ ∃ lead trail,
        p.segments = lead ++ name.toList :: trail ∧ ∀ segment ∈ trail, isIdle segment = true := by
  rw [fileName?_eq_some_iff_getLast?, components]
  constructor
  · intro h
    rcases idle_or_exists_last p.segments with hidle | ⟨lead, last, trail, hsegments, hlast, htrail⟩
    · exact absurd h (getLast?_componentsOf_of_idle hidle name)
    · rw [hsegments, getLast?_componentsOf lead hlast htrail] at h
      obtain ⟨rfl, hidle, hup⟩ := eq_of_componentOf? h
      have hslash : '/' ∉ name.toList := noSlash_of_mem_segments (by rw [hsegments]; simp)
      exact ⟨⟨hslash, hidle, hup⟩, lead, trail, hsegments, htrail⟩
  · rintro ⟨hname, lead, trail, hsegments, htrail⟩
    rw [hsegments, getLast?_componentsOf lead hname.notIdle htrail]
    exact componentOf?_of_isName hname

theorem fileName?_child
    (base : Path)
    (h : IsName name) :
    (base.child name).fileName? = some name :=
  fileName?_eq_some_iff.mpr ⟨h, base.stem, [], segments_child h.noSlash, by simp⟩

/-- A slash at the end is no component. -/
theorem fileName?_child_empty
    (base : Path)
    (h : IsName name) :
    ((base.child name).child "").fileName? = some name := by
  refine fileName?_eq_some_iff.mpr ⟨h, base.stem, [[]], ?_, by simp [isIdle_nil]⟩
  rw [segments_child_empty h, segments_child h.noSlash, List.append_assoc]
  rfl

end Path

/-! ## Output directories -/

namespace GenerationSettings

variable {settings : GenerationSettings}
variable {cwd directory : Path}

theorem noPathText_of_isWord
    {s : String}
    (h : Go.isWord s = true) :
    Config.isPathText s = false := by
  unfold Config.isPathText
  rw [List.any_eq_false]
  intro c hc
  simp only [Bool.or_eq_true, beq_iff_eq, not_or]
  constructor
  · rintro rfl
    exact Go.notMem_of_isWord h (by decide) hc
  · rintro rfl
    exact Go.notMem_of_isWord h (by decide) hc

/-- A package that is given by a path is named by the last part of the path. -/
theorem getLast?_components
    (hpath : Config.isPathText settings.package = true)
    (hpackage : Go.isPackageName settings.goPackage = true) :
    (Path.components ⟨settings.package⟩).getLast? = some (.name settings.goPackage) := by
  have hfile : Path.fileName? ⟨settings.package⟩ = some settings.goPackage := by
    cases hname : Path.fileName? ⟨settings.package⟩ with
    | some s => simp [goPackage, hname]
    | none =>
        have hword := Go.isWord_of_isPackageName hpackage
        rw [goPackage, hname] at hword
        rw [noPathText_of_isWord (show Go.isWord settings.package = true from hword)] at hpath
        cases hpath
  exact Path.fileName?_eq_some_iff_getLast?.mp hfile

/-- A package that is given by a name has that name. -/
theorem goPackage_eq
    (hpath : Config.isPathText settings.package = false) :
    settings.goPackage = settings.package := by
  have hslash : '/' ∉ settings.package.toList := by
    intro hmem
    have hany := List.any_eq_false.mp hpath '/' hmem
    simp at hany
  have hsegments : Path.segments ⟨settings.package⟩ = [settings.package.toList] :=
    List.splitOn_eq_singleton hslash
  unfold goPackage
  cases hfile : Path.fileName? ⟨settings.package⟩ with
  | none => rfl
  | some name =>
      obtain ⟨-, lead, trail, hname, -⟩ := Path.fileName?_eq_some_iff.mp hfile
      rw [hsegments] at hname
      cases lead with
      | nil => exact (String.toList_inj.mp (List.cons.inj hname).1).symm
      | cons first rest => simp at hname

/-- The output directory ends in the name of the package. -/
theorem exists_base
    (h : settings.outputDirectory cwd = .ok directory)
    (hpackage : Go.isPackageName settings.goPackage = true) :
    ∃ base : Path,
      directory = base.child settings.goPackage ∨
        directory = (base.child settings.goPackage).child "" := by
  unfold outputDirectory at h
  split at h
  · next hpath =>
      split at h
      · next path habsolute =>
          cases h
          unfold Path.absolute? at habsolute
          split at habsolute
          · cases habsolute
          · obtain ⟨init, hinit⟩ :=
              List.getLast?_eq_some_iff.mp (getLast?_components hpath hpackage)
            rw [hinit, Path.extend_append] at habsolute
            refine ⟨(Path.absoluteStart cwd ⟨settings.package⟩).extend init, ?_⟩
            have hpath := Option.some.inj habsolute
            split at hpath
            · exact Or.inr hpath.symm
            · exact Or.inl hpath.symm
      · cases h
  · next hpath =>
      cases h
      refine ⟨settings.out.parent?.getD ⟨""⟩, Or.inl ?_⟩
      rw [goPackage_eq (by simpa using hpath)]

end GenerationSettings

/-! ## Provider directories -/

namespace Providers

open FileTree

variable {tree : FileTree}
variable {base directory : Path}
variable {name : String}
variable {location above : Location}

theorem isAbsolute_child_empty
    (base : Path) :
    (base.child "").isAbsolute = base.isAbsolute :=
  Path.isAbsolute_child (by simp)

/-- A slash at the end of a path changes neither where it leads nor where its provider files
lie. -/
theorem destination_child_empty
    (tree : FileTree)
    (base : Path)
    (hname : Path.IsName name) :
    tree.destination ((base.child name).child "") = tree.destination (base.child name) ∧
      directoryOf ((base.child name).child "") = directoryOf (base.child name) := by
  constructor
  · unfold destination
    have hstart : tree.startOf ((base.child name).child "") = tree.startOf (base.child name) := by
      simp [startOf, isAbsolute_child_empty]
    rw [hstart, Path.segments_child_empty hname, follow_append]
    cases follow (tree.startOf (base.child name)) (base.child name).segments with
    | error e => rfl
    | ok middle => rfl
  · unfold directoryOf Path.parent?
    rw [Path.parents_child_empty hname]

/-- The provider files of a target lie in its directory. -/
theorem destination_directoryOf_child
    (tree : FileTree)
    (hname : Path.IsName name) :
    tree.destination (directoryOf (base.child name)) = follow (tree.startOf base) base.stem := by
  unfold directoryOf
  rw [Path.parent?_child_eq hname]
  simp only
  split
  · next hempty =>
      -- the directory is the working directory
      have hstem : base.stem = [] := by
        by_contra hne
        rw [Path.isEmpty_text_above hne] at hempty
        cases hempty
      have htext : base.text = "" := by simpa using Path.stem_eq_nil_iff.mp hstem
      have hstart : tree.startOf base = tree.cwd := by
        simp [startOf, Path.isAbsolute, htext]
      rw [hstem, hstart]
      rfl
  · next hempty =>
      have hstem : base.stem ≠ [] := by
        intro hstem
        simp [Path.above, hstem] at hempty
      exact follow_above tree hstem

/-- The provider files lie right above the package. -/
theorem location_eq_child
    (hname : Path.IsName name)
    (h : tree.destination (base.child name) = .ok location)
    (habove : tree.destination (directoryOf (base.child name)) = .ok above) :
    location = above ++ [name] := by
  obtain ⟨found, hfollow, rfl⟩ := destination_child hname h
  rw [destination_directoryOf_child tree hname, hfollow] at habove
  cases habove
  rfl

/-- The provider files lie right above the package. -/
theorem location_eq
    (hname : Path.IsName name)
    (hdirectory : directory = base.child name ∨ directory = (base.child name).child "")
    (h : tree.destination directory = .ok location)
    (habove : tree.destination (directoryOf directory) = .ok above) :
    location = above ++ [name] := by
  rcases hdirectory with rfl | rfl
  · exact location_eq_child hname h habove
  · rw [(destination_child_empty tree base hname).1] at h
    rw [(destination_child_empty tree base hname).2] at habove
    exact location_eq_child hname h habove

end Providers
end GormForge
