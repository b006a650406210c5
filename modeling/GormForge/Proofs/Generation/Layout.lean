import GormForge.Proofs.Emission.Untouched
import GormForge.Proofs.FileTree.Contents
import GormForge.Proofs.Generation.Package
import GormForge.Proofs.Generation.Steps

/-!
# Where a run writes

The files of the models go to the output directory, the provider files lie right above it.

**Input.**  A run on a proper tree, once it has made its output directory.

**Results.**
* `Begun.exists_placed`: the output directory lies at a location.
* `Placed.exists_above`: the provider files lie in the directory above that location.
* `Placed.content?_beside`: the emission leaves the files of that directory as they were.
* `Placed.refills_patchFiles`: patching them writes in that directory only.
* `Reaches.proper`: a run keeps a tree proper.
-/

namespace GormForge

open FileTree

/-- The locations of provider files beside a package that lies at a location. -/
def GenerationJob.Wires (job : GenerationJob) (location place : Location) : Prop :=
  ∃ above name,
    location = above ++ [job.settings.goPackage] ∧ Path.IsName name ∧ place = above ++ [name]

namespace GenerationJob.Wires

variable {job : GenerationJob}
variable {location place : Location}

/-- Provider files lie outside of the package. -/
theorem ne_child
    (h : job.Wires location place)
    (name : String) :
    place ≠ location ++ [name] := by
  obtain ⟨above, other, rfl, -, rfl⟩ := h
  intro heq
  simpa using congrArg List.length heq

theorem isProper
    (h : job.Wires location place)
    (hlocation : Location.IsProper location) :
    Location.IsProper place := by
  obtain ⟨above, other, rfl, hname, rfl⟩ := h
  exact isProper_append (fun _ hin => hlocation _ (List.mem_append_left _ hin)) hname

end GenerationJob.Wires

namespace Generation

variable {job : GenerationJob}
variable {tree made last seen : FileTree}
variable {directory path : Path}
variable {location place : Location}
variable {files : List EmittedFile}
variable {paths front left : List Path}
variable {state : RunState}
variable {result : Except GenerateError GenerationReport}

/-! ## The output directory -/

/-- A run that has made its output directory at a location. -/
structure Placed (job : GenerationJob) (tree : FileTree) (directory : Path) (made : FileTree)
    (location : Location) : Prop where
  begun : Begun job tree directory made
  destination : tree.destination directory = .ok location
  proper : Proper made
  settles : (job.emission directory).Settles made location

/-- Making the output directory writes no files. -/
theorem Begun.grows
    (h : Begun job tree directory made)
    (writes : Location → Prop) :
    Grows writes tree made := by
  have hgrows := grows_createDirectories writes tree directory
  rw [h.created] at hgrows
  exact hgrows

/-- The output directory of a run lies at a location. -/
theorem Begun.exists_placed
    (h : Begun job tree directory made)
    (hproper : Proper tree) :
    ∃ location, Placed job tree directory made location := by
  have hmade := hproper.createDirectories directory
  rw [h.created] at hmade
  obtain ⟨location, hdest, hheld⟩ := hproper.exists_holds h.created
  rw [(h.grows fun _ => False).destination] at hdest
  exact ⟨location, h, hdest, hmade, hheld, fun _ => GenerationJob.noSlash_fileName,
    job.nodup_names directory⟩

theorem Placed.isProper
    (h : Placed job tree directory made location) :
    Location.IsProper location :=
  h.proper.named (by simp [h.settles.held.directory])

theorem Placed.proper_last
    {result : Emission.UnitResult}
    (h : Placed job tree directory made location)
    (hemission : Emission.Returns (job.emission directory) made result last) :
    Proper last := by
  obtain ⟨state, hreach, -, rfl⟩ := hemission
  exact hreach.proper h.settles h.proper

/-- Paths lead where they led before the run. -/
theorem Placed.destination_of_reaches
    {emission : Emission.State}
    (h : Placed job tree directory made location)
    (hreach : Emission.Reaches (job.emission directory) made emission)
    (path : Path) :
    emission.tree.destination path = tree.destination path := by
  have hemitted := (hreach.refills h.settles).toGrows
  rw [hemitted.destination, (h.begun.grows fun _ => False).destination]

/-- A run that emitted its files has a package that can be declared. -/
theorem Placed.isPackageName
    (h : Placed job tree directory made location)
    (hemission : Emission.Returns (job.emission directory) made (.ok files) last) :
    Go.isPackageName job.settings.goPackage = true := by
  obtain ⟨state, hreach, hret, rfl⟩ := hemission
  have hne : job.models ≠ [] := by
    simpa [GenerationJob.models] using h.begun.models
  obtain ⟨model, hmodel⟩ := List.exists_mem_of_ne_nil _ hne
  obtain ⟨seen, prepared, hprepare, -⟩ := hreach.stored h.settles hret hmodel .queries
  rw [← (GenerationJob.draws hmodel).package]
  exact (Emitter.valid_of_prepareFile hprepare).2

/-! ## The provider files -/

/-- The provider files lie in the directory right above a package that can be declared. -/
theorem Placed.location_eq
    {above : Location}
    (h : Placed job tree directory made location)
    (hpackage : Go.isPackageName job.settings.goPackage = true)
    (habove : tree.destination (Providers.directoryOf directory) = .ok above) :
    location = above ++ [job.settings.goPackage] := by
  have hname : Path.IsName job.settings.goPackage :=
    Path.isName_of_isWord (Go.isWord_of_isPackageName hpackage)
  obtain ⟨base, hbase⟩ := GenerationSettings.exists_base h.begun.named hpackage
  exact Providers.location_eq hname hbase h.destination habove

/-- An emission leaves the files beside the package as they were.  It writes nothing at all for
a package that cannot be declared. -/
theorem Placed.content?_beside
    {above : Location}
    {emission : Emission.State}
    (h : Placed job tree directory made location)
    (hreach : Emission.Reaches (job.emission directory) made emission)
    (habove : tree.destination (Providers.directoryOf directory) = .ok above)
    (name : String) :
    emission.tree.content? (above ++ [name]) = tree.content? (above ++ [name]) := by
  have hemitted := (hreach.refills_prepared h.settles).toGrows
  have hnot : ¬ (job.emission directory).Prepares location (above ++ [name]) := by
    rintro ⟨model, hmodel, file, seen, text, hprepare, hplace⟩
    have hdraws : job.settings.Draws model := GenerationJob.draws hmodel
    have hpackage := (Emitter.valid_of_prepareFile_some hprepare).2
    rw [hdraws.package] at hpackage
    rw [h.location_eq hpackage habove] at hplace
    simpa using congrArg List.length hplace
  rw [hemitted.content? hnot, (h.begun.grows fun _ => False).content? not_false]

/-- The provider files of a run lie in the directory above its output directory. -/
theorem Placed.exists_above
    (h : Placed job tree directory made location)
    (hemission : Emission.Returns (job.emission directory) made (.ok files) last)
    (hcandidates : Providers.candidates last directory = .ok paths) :
    ∃ above,
      location = above ++ [job.settings.goPackage] ∧
        Holds last (Providers.directoryOf directory) above := by
  have hpackage := h.isPackageName hemission
  obtain ⟨state, hreach, -, rfl⟩ := hemission
  obtain ⟨above, habove, hheld⟩ := Providers.exists_holds_of_candidates hcandidates
  rw [h.destination_of_reaches hreach] at habove
  exact ⟨above, h.location_eq hpackage habove, hheld⟩

/-- Provider files lead beside the package, also later in the run. -/
theorem Placed.wires_of_resolve
    {writes : Location → Prop}
    (h : Placed job tree directory made location)
    (hemission : Emission.Returns (job.emission directory) made (.ok files) last)
    (hcandidates : Providers.candidates last directory = .ok paths)
    (hpath : path ∈ paths)
    (hgrows : Grows writes last seen)
    (hres : seen.resolve path = .ok place) :
    job.Wires location place := by
  obtain ⟨above, hlocation, hheld⟩ := h.exists_above hemission hcandidates
  obtain ⟨name, hname, rfl⟩ :=
    Providers.exists_name_of_mem_candidates (h.proper_last hemission) hcandidates hpath
  exact ⟨above, name, hlocation, hname, (hheld.grows hgrows).eq_of_resolve_child hname hres⟩

/-- Patching provider files writes beside the package only. -/
theorem Placed.refills_patchFiles
    (h : Placed job tree directory made location)
    (hemission : Emission.Returns (job.emission directory) made (.ok files) last)
    (hcandidates : Providers.candidates last directory = .ok (front ++ left)) :
    Refills (job.Wires location) last (Providers.patchFiles job.insertions front last).2 ∧
      (Providers.patchFiles job.insertions front last).2.outline = last.outline := by
  obtain ⟨above, hlocation, hheld⟩ := h.exists_above hemission hcandidates
  have hproper := h.proper_last hemission
  obtain ⟨hrefills, houtline⟩ := Providers.refills_patchFiles hheld fun path hpath =>
    Providers.exists_name_of_mem_candidates hproper hcandidates (List.mem_append_left left hpath)
  refine ⟨hrefills.mono ?_, houtline⟩
  rintro _ ⟨name, hname, rfl⟩
  exact ⟨above, name, hlocation, hname, rfl⟩

theorem Placed.proper_patchFiles
    (h : Placed job tree directory made location)
    (hemission : Emission.Returns (job.emission directory) made (.ok files) last)
    (hcandidates : Providers.candidates last directory = .ok (front ++ left)) :
    Proper (Providers.patchFiles job.insertions front last).2 :=
  (h.proper_last hemission).refills (h.refills_patchFiles hemission hcandidates).1
    fun _ hwires => hwires.isProper h.isProper

/-! ## Proper trees -/

theorem Placed.proper_patch
    (h : Placed job tree directory made location)
    (hemission : Emission.Returns (job.emission directory) made (.ok files) last) :
    Proper (Providers.patch directory job.insertions last).2 := by
  rw [Providers.patch_of_candidates]
  split
  · exact h.proper_last hemission
  · next paths hcandidates =>
      have hall : Providers.candidates last directory = .ok (paths ++ []) := by
        rw [List.append_nil, hcandidates]
      exact h.proper_patchFiles hemission hall

theorem Ends.proper
    (h : Ends job tree result last)
    (hproper : Proper tree) :
    Proper last := by
  cases h with
  | nothing => exact hproper
  | noDirectory => exact hproper
  | @notMade directory _ _ _ _ hmade =>
      have hdirectories := hproper.createDirectories directory
      rw [hmade] at hdirectories
      exact hdirectories
  | failed hbegun hemission =>
      obtain ⟨location, hplaced⟩ := hbegun.exists_placed hproper
      exact hplaced.proper_last hemission
  | emitted hbegun hemission =>
      obtain ⟨location, hplaced⟩ := hbegun.exists_placed hproper
      exact hplaced.proper_last hemission
  | wired hbegun hemission _ hpatch =>
      obtain ⟨location, hplaced⟩ := hbegun.exists_placed hproper
      have hpatched := hplaced.proper_patch hemission
      rw [hpatch] at hpatched
      exact hpatched
  | unwired hbegun hemission _ hpatch =>
      obtain ⟨location, hplaced⟩ := hbegun.exists_placed hproper
      have hpatched := hplaced.proper_patch hemission
      rw [hpatch] at hpatched
      exact hpatched

/-- A run keeps a tree proper. -/
theorem Reaches.proper
    (h : Reaches job tree state)
    (hproper : Proper tree) :
    Proper state.tree := by
  have hfollows := h.follows
  cases state with
  | starting seen =>
      obtain rfl : seen = tree := hfollows
      exact hproper
  | emitting directory emission =>
      obtain ⟨made, hbegun, hreach⟩ := hfollows
      obtain ⟨location, hplaced⟩ := hbegun.exists_placed hproper
      exact hreach.proper hplaced.settles hplaced.proper
  | wiring files left outcomes seen =>
      obtain ⟨directory, made, last, front, hbegun, hemission, -, hcandidates, hpatch⟩ := hfollows
      obtain ⟨location, hplaced⟩ := hbegun.exists_placed hproper
      have hpatched := hplaced.proper_patchFiles hemission hcandidates
      rw [hpatch] at hpatched
      exact hpatched
  | ended result seen => exact Ends.proper hfollows hproper

end Generation
end GormForge
