import GormForge.Proofs.Generation.Again
import Mathlib.Logic.Relation

/-!
# Histories of runs

Runs that follow each other on one tree and share an output directory.

**Input.**  Every run has settings, tables, workers, a schedule and a working directory of its
own, and may end in a failure.

**Algorithm.**  A step of a run makes directories or writes one file: queries, a file for queries
written by hand where there is none, or a provider file beside the package.

**Results.**
* `Reaches.grows_step`: a step of a run writes nothing else.
* `HistoryStep.kept`: a file for queries written by hand is written by none of these steps.
* `custom_untouched`: such a file keeps its content in every history.
-/

namespace GormForge

open FileTree

namespace GenerationJob

variable {job : GenerationJob}
variable {model : GoStruct}

/-- The output directory of a job, if it has one, lies at a location. -/
def GoesTo (job : GenerationJob) (tree : FileTree) (location : Location) : Prop :=
  ∀ directory,
    job.settings.outputDirectory tree.workingDirectory = .ok directory →
      tree.destination directory = .ok location

/-- The name of the file for queries written by hand. -/
def customName (structName : String) : String :=
  Text.lowerFirst structName ++ ".go"

/-- No file of queries has the name of a file for queries written by hand. -/
theorem nameFor_queries_ne
    (model : GoStruct)
    (naming : NamingConvention)
    (table : String) :
    ModelFile.queries.nameFor model ≠ customName (naming.structName table) := by
  intro heq
  have hlists := congrArg String.toList heq
  simp only [ModelFile.nameFor, customName, String.toList_append] at hlists
  have hfront : model.fileName.toList ++ "_gen".toList =
      (Text.lowerFirst (naming.structName table)).toList := by
    refine List.append_cancel_right (?_ : _ ++ ".go".toList = _ ++ ".go".toList)
    rw [← hlists]
    simp
  refine Text.notMem_lowerFirst Text.isMark_underscore
    (NamingConvention.noUnderscore_structName naming table) ?_
  rw [← hfront]
  simp

/-- What a step of a job may write: queries, a file for queries written by hand where there is
none, and provider files. -/
inductive MayWrite (job : GenerationJob) (tree : FileTree) (location : Location) :
    Location → Prop
  | queries {model : GoStruct} (hmodel : model ∈ job.models) :
      MayWrite job tree location (location ++ [ModelFile.queries.nameFor model])
  | custom {place : Location} (hnone : ∀ content, tree.get? place ≠ some (.file content)) :
      MayWrite job tree location place
  | provider {place : Location} (hwires : job.Wires location place) :
      MayWrite job tree location place

end GenerationJob

namespace Generation

variable {job now later : GenerationJob}
variable {tree : FileTree}
variable {location : Location}
variable {state after : RunState}

/-! ## Steps -/

theorem settle_tree
    (job : GenerationJob)
    (directory : Path)
    (tree : FileTree)
    (result : Emission.UnitResult) :
    (settle job directory tree result).tree = tree := by
  unfold settle
  repeat' split
  all_goals rfl

theorem wireNext_tree
    (job : GenerationJob)
    (files : List EmittedFile)
    (outcomes : List PatchOutcome)
    (tree : FileTree)
    (path : Path)
    (rest : List Path) :
    (wireNext job files outcomes tree (path :: rest)).tree =
      (Providers.patchFile job.insertions path tree).2 := by
  simp only [wireNext]
  rcases Providers.patchFile job.insertions path tree with ⟨_ | _, _⟩ <;> rfl

theorem grows_begin
    (writes : Location → Prop)
    (job : GenerationJob)
    (tree : FileTree) :
    Grows writes tree (begin job tree).tree := by
  unfold begin
  split
  · exact Grows.refl _ _
  · split
    · exact Grows.refl _ _
    · next directory _ =>
        have hgrows := grows_createDirectories writes tree directory
        split
        · next hmade =>
            rw [hmade] at hgrows
            exact hgrows
        · next hmade =>
            rw [hmade] at hgrows
            exact hgrows

/-- The output directory of a run lies where the job goes to. -/
theorem Begun.placed
    {directory : Path}
    {made : FileTree}
    (h : Begun job tree directory made)
    (hproper : Proper tree)
    (hgoes : job.GoesTo tree location) :
    Placed job tree directory made location := by
  obtain ⟨found, hplaced⟩ := h.exists_placed hproper
  have hsame := hgoes directory h.named
  rw [hplaced.destination] at hsame
  cases hsame
  exact hplaced

/-- The provider files that a run has before it lie beside the package. -/
theorem Reaches.wires_of_mem
    {files : List EmittedFile}
    {left : List Path}
    {outcomes : List PatchOutcome}
    {seen : FileTree}
    {path : Path}
    {place : Location}
    (h : Reaches job tree (.wiring files left outcomes seen))
    (hproper : Proper tree)
    (hgoes : job.GoesTo tree location)
    (hpath : path ∈ left)
    (hres : seen.resolve path = .ok place) :
    job.Wires location place := by
  obtain ⟨directory, made, last, front, hbegun, hemission, -, hcandidates, hpatch⟩ := h.follows
  have hplaced := hbegun.placed hproper hgoes
  have hpatched := (hplaced.refills_patchFiles hemission hcandidates).1
  rw [hpatch] at hpatched
  exact hplaced.wires_of_resolve hemission hcandidates (List.mem_append_right _ hpath)
    hpatched.toGrows hres

/-- A move of the emission writes queries, or a file for queries written by hand that is not
there. -/
theorem Placed.grows_move
    {directory : Path}
    {made : FileTree}
    {emission next : Emission.State}
    {move : Emission.Move}
    (h : Placed job tree directory made location)
    (hreach : Emission.Reaches (job.emission directory) made emission)
    (hmove : emission.move (job.emission directory) move = some next) :
    Grows (job.MayWrite emission.tree location) emission.tree next.tree := by
  have hjob := h.settles
  have hheld := hjob.held.grows (hreach.refills hjob).toGrows
  rcases hreach.writes_move hjob hheld hmove with
    heq | ⟨worker, hin, file, text, rest, emitted, hphase, hrefills⟩
  · rw [heq]
    exact Grows.refl _ _
  · have hmodel := hreach.model_mem hin
    refine hrefills.toGrows.mono fun place hres => ?_
    cases file with
    | queries =>
        rw [hheld.eq_of_resolve_child (hjob.isName hmodel .queries) hres]
        exact .queries hmodel
    | custom =>
        have hprepared := (hreach.keeps hjob worker hin).prepared hphase
        exact .custom (hprepared.notFile hheld (hjob.isName hmodel .custom) hres)

/-- A step of a run makes directories and writes what it may write. -/
theorem Reaches.grows_step
    (h : Reaches job tree state)
    (hproper : Proper tree)
    (hgoes : job.GoesTo tree location)
    {move : RunMove}
    (hstep : Generation.step job state move = some after) :
    Grows (job.MayWrite state.tree location) state.tree after.tree := by
  cases step_eq_some_iff.mp hstep with
  | @begin seen => exact grows_begin _ job seen
  | emission hmove =>
      obtain ⟨made, hbegun, hreach⟩ := h.follows
      exact (hbegun.placed hproper hgoes).grows_move hreach hmove
  | settle =>
      rw [settle_tree]
      exact Grows.refl _ _
  | @wire files left outcomes seen =>
      cases left with
      | nil => exact Grows.refl _ _
      | cons path rest =>
          rw [wireNext_tree]
          refine (Providers.refills_patchFile fun place hres => ?_).1.toGrows
          exact .provider (h.wires_of_mem hproper hgoes (List.mem_cons_self ..) hres)

/-- A run keeps what there is in the tree, as directories and as files. -/
theorem Reaches.grows
    (h : Reaches job tree state)
    (hproper : Proper tree)
    (hgoes : job.GoesTo tree location) :
    Grows (fun _ => True) tree state.tree := by
  induction h with
  | start => exact Grows.refl _ _
  | step move hreach hstep ih =>
      exact ih.trans ((hreach.grows_step hproper hgoes hstep).mono fun _ _ => trivial)

/-! ## Histories -/

/-- A step in a history: a step of a run, or the start of the next run once a run has ended.
The next run may be any run that shares the output directory. -/
inductive HistoryStep (location : Location) :
    GenerationJob × RunState → GenerationJob × RunState → Prop
  | run {job : GenerationJob} {state after : RunState} (move : RunMove)
      (hstep : Generation.step job state move = some after) :
      HistoryStep location (job, state) (job, after)
  | next {job other : GenerationJob} {result : Except GenerateError GenerationReport}
      {seen : FileTree} {cwd : Location}
      (hcwd : seen.get? cwd = some .directory)
      (hgoes : other.GoesTo { seen with cwd := cwd } location) :
      HistoryStep location (job, .ended result seen) (other, .starting { seen with cwd := cwd })

/-- Every run is a history. -/
theorem history_of_reaches
    (location : Location)
    (h : Reaches job tree state) :
    Relation.ReflTransGen (HistoryStep location) (job, .starting tree) (job, state) := by
  induction h with
  | start => exact .refl
  | step move _ hstep ih => exact ih.tail (.run move hstep)

/-- A state of a run that goes to a location. -/
def Within (location : Location) (run : GenerationJob × RunState) : Prop :=
  ∃ tree, Proper tree ∧ run.1.GoesTo tree location ∧ Reaches run.1 tree run.2

section Within

variable {run next : GenerationJob × RunState}
variable {name : String}
variable {content : Content}

theorem HistoryStep.within
    (h : HistoryStep location run next)
    (hwithin : Within location run) :
    Within location next := by
  obtain ⟨tree, hproper, hgoes, hreach⟩ := hwithin
  cases h with
  | run move hstep => exact ⟨tree, hproper, hgoes, hreach.step move hstep⟩
  | @next job other result seen cwd hcwd hgoes' =>
      have hseen : Proper seen := hreach.proper hproper
      have hmoved : Proper { seen with cwd := cwd } := ⟨hseen.named, hcwd⟩
      exact ⟨{ seen with cwd := cwd }, hmoved, hgoes', .start⟩

theorem within_of_history
    (h : Relation.ReflTransGen (HistoryStep location) run next)
    (hwithin : Within location run) :
    Within location next := by
  induction h with
  | refl => exact hwithin
  | tail _ hstep ih => exact hstep.within ih

/-- Where no queries go, a file of the output directory is never written. -/
theorem not_mayWrite
    (hname : ∀ model : GoStruct, ModelFile.queries.nameFor model ≠ name)
    (hfile : tree.get? (location ++ [name]) = some (.file content)) :
    ¬ job.MayWrite tree location (location ++ [name]) := by
  intro hwrites
  generalize hplace : location ++ [name] = place at hwrites hfile
  cases hwrites with
  | queries =>
      exact hname _ (List.singleton_inj.mp (List.append_cancel_left hplace)).symm
  | custom hnone => exact hnone content hfile
  | provider hwires => exact hwires.ne_child name hplace.symm

/-- Such a file keeps its content in every step of a history. -/
theorem HistoryStep.kept
    (h : HistoryStep location run next)
    (hwithin : Within location run)
    (hname : ∀ model : GoStruct, ModelFile.queries.nameFor model ≠ name)
    (hfile : run.2.tree.get? (location ++ [name]) = some (.file content)) :
    next.2.tree.get? (location ++ [name]) = some (.file content) := by
  obtain ⟨tree, hproper, hgoes, hreach⟩ := hwithin
  cases h with
  | run move hstep =>
      have hgrows := hreach.grows_step hproper hgoes hstep
      rcases hgrows.elsewhere (not_mayWrite hname hfile) with heq | ⟨hnone, -⟩
      · exact heq.trans hfile
      · exact absurd (hnone.symm.trans hfile) (by simp)
  | next => exact hfile

theorem kept_of_history
    (h : Relation.ReflTransGen (HistoryStep location) run next)
    (hwithin : Within location run)
    (hname : ∀ model : GoStruct, ModelFile.queries.nameFor model ≠ name)
    (hfile : run.2.tree.get? (location ++ [name]) = some (.file content)) :
    next.2.tree.get? (location ++ [name]) = some (.file content) := by
  induction h with
  | refl => exact hfile
  | tail hbefore hstep ih => exact hstep.kept (within_of_history hbefore hwithin) hname ih

/-- Files of the output directory lie at the location that the run goes to. -/
theorem Within.eq_of_resolve_child
    {directory : Path}
    {place : Location}
    (h : Within location run)
    (hdirectory :
      run.1.settings.outputDirectory run.2.tree.workingDirectory = .ok directory)
    (hname : Path.IsName name)
    (hres : run.2.tree.resolve (directory.child name) = .ok place) :
    place = location ++ [name] := by
  obtain ⟨tree, hproper, hgoes, hreach⟩ := h
  have hgrows := hreach.grows hproper hgoes
  rw [FileTree.workingDirectory, hgrows.cwd] at hdirectory
  have hdest := hgoes directory hdirectory
  have hplace := destination_of_resolve hres
  rw [hgrows.destination] at hplace
  obtain ⟨found, hfollow, rfl⟩ := destination_child hname hplace
  rw [← destination_eq_follow, hdest] at hfollow
  cases hfollow
  rfl

end Within

/-- Once the file for queries written by hand of a table is there, it keeps its content in every
history of runs that share the output directory.  No file of queries and no provider file of any
of the runs lies in its place. -/
theorem custom_untouched
    (hproper : Proper tree)
    (hgoes : job.GoesTo tree location)
    (hhistory : Relation.ReflTransGen (HistoryStep location) (job, .starting tree) (now, state))
    (naming : NamingConvention)
    (table : String) :
    (∀ content later after,
      state.tree.get? (location ++ [GenerationJob.customName (naming.structName table)]) =
          some (.file content) →
        Relation.ReflTransGen (HistoryStep location) (now, state) (later, after) →
          after.tree.get? (location ++ [GenerationJob.customName (naming.structName table)]) =
            some (.file content)) ∧
    (∀ directory,
      now.settings.outputDirectory state.tree.workingDirectory = .ok directory →
        ∀ model ∈ now.models, ∀ place,
          state.tree.resolve (ModelFile.queries.pathIn directory model) = .ok place →
            place ≠ location ++ [GenerationJob.customName (naming.structName table)]) ∧
    ∀ files left outcomes seen,
      state = .wiring files left outcomes seen →
        ∀ path ∈ left, ∀ place,
          seen.resolve path = .ok place →
            place ≠ location ++ [GenerationJob.customName (naming.structName table)] := by
  have hwithin : Within location (now, state) :=
    within_of_history hhistory ⟨tree, hproper, hgoes, .start⟩
  have hname : ∀ model : GoStruct, ModelFile.queries.nameFor model ≠
      GenerationJob.customName (naming.structName table) := fun model =>
    GenerationJob.nameFor_queries_ne model naming table
  refine ⟨fun content later after hfile hlater => ?_, ?_, ?_⟩
  · exact kept_of_history hlater hwithin hname hfile
  · intro directory hdirectory model hmodel place hres heq
    have hqueries := ModelFile.isName_nameFor (GenerationJob.noSlash_fileName hmodel) .queries
    rw [hwithin.eq_of_resolve_child hdirectory hqueries hres] at heq
    exact hname model (List.singleton_inj.mp (List.append_cancel_left heq))
  · rintro files left outcomes seen rfl path hpath place hres
    obtain ⟨start, hstart, hgoes, hreach⟩ := hwithin
    exact (hreach.wires_of_mem hstart hgoes hpath hres).ne_child _

/-- The file that a run created for queries written by hand stays as it is in all later runs. -/
theorem users_untouched :
    ∃ state,
      Relation.ReflTransGen (HistoryStep ["db", "db"])
          (usersJob, .starting usersTree) (usersJob, state) ∧
        state.tree.get? ["db", "db", "user.go"] = some (.file (.text "b")) ∧
        ∀ later after,
          Relation.ReflTransGen (HistoryStep ["db", "db"]) (usersJob, state) (later, after) →
            after.tree.get? ["db", "db", "user.go"] = some (.file (.text "b")) := by
  obtain ⟨files, hemission⟩ := returns_users
  have hreach := reaches_ended_iff.mpr (.wired begun_users hemission rfl patch_users)
  have hhistory := history_of_reaches ["db", "db"] hreach
  have hproper : Proper usersTree := proper_of_nodes (by decide) rfl
  have hgoes : usersJob.GoesTo usersTree ["db", "db"] := by
    intro directory hdirectory
    cases hdirectory
    rfl
  have hname : GenerationJob.customName (({} : NamingConvention).structName "users") =
      "user.go" := by
    decide +kernel
  obtain ⟨hkept, -⟩ := custom_untouched hproper hgoes hhistory {} "users"
  rw [hname] at hkept
  have hfile : usersPatched.get? ["db", "db", "user.go"] = some (.file (.text "b")) := by
    decide +kernel
  exact ⟨_, hhistory, hfile, fun later after hlater => hkept _ later after hfile hlater⟩

end Generation
end GormForge
