import GormForge.Proofs.Generation.History
import GormForge.Proofs.Generation.Phases

/-!
# Runs that fail

What a run leaves alone that ends in a failure.

**Input.**  A run on a proper tree, with any schedule.

**Algorithm.**  A run fails before its directory is made, while it is made, or in its emission:
what comes after the emission is no failure any more.  So no provider file is patched.  What was
written by then are files of models for which a text was prepared.

**Results.**
* `content?_of_queriesFail`: queries that could not be prepared are left alone.
* `Ends.content?_beside`: a run that fails leaves the files beside the package as they were.
* `failed_leaves`: such a run leaves alone all files but those that it has generated.
-/

namespace GormForge
namespace Generation

open FileTree

variable {job : GenerationJob}
variable {tree after : FileTree}
variable {directory : Path}
variable {schedule : List RunMove}
variable {e : GenerateError}

/-! ## Files beside the package -/

/-- A run that fails leaves the files beside the package as they were. -/
theorem Ends.content?_beside
    {above : Location}
    (h : Ends job tree (.error e) after)
    (hproper : Proper tree)
    (hdirectory : job.settings.outputDirectory tree.workingDirectory = .ok directory)
    (habove : tree.destination (Providers.directoryOf directory) = .ok above)
    (name : String) :
    after.content? (above ++ [name]) = tree.content? (above ++ [name]) := by
  cases h with
  | noDirectory => rfl
  | @notMade other made cause _ hnamed hmade =>
      have hgrows := grows_createDirectories (fun _ => False) tree other
      rw [hmade] at hgrows
      exact hgrows.content? not_false
  | failed hbegun hemission =>
      have hnamed := hbegun.named
      rw [hdirectory] at hnamed
      cases hnamed
      obtain ⟨location, hplaced⟩ := hbegun.exists_placed hproper
      obtain ⟨emission, hreach, -, rfl⟩ := hemission
      exact hplaced.content?_beside hreach habove name

/-! ## Files of models -/

/-- In a run, the queries of a model failed to validate, to render or to format: a worker that
was about to prepare them took its step, and it failed. -/
def QueriesFail (job : GenerationJob) (tree : FileTree) (schedule : List RunMove)
    (model : GoStruct) : Prop :=
  ∃ front place back directory emission worker rest emitted failure,
    schedule = front ++ .emission (.worker place) :: back ∧
      (RunState.starting tree).run job front = some (.emitting directory emission) ∧
      emission.workers[place]? = some worker ∧
      worker.model = model ∧
      worker.phase = .rendering .queries rest emitted ∧
      (job.emission directory).emitter.prepareFile directory model .queries emission.tree =
        .error failure

/-- A run that fails leaves the queries of a model as they were if they could not be
prepared. -/
theorem content?_of_queriesFail
    {location : Location}
    {model : GoStruct}
    (hproper : Proper tree)
    (hdirectory : job.settings.outputDirectory tree.workingDirectory = .ok directory)
    (hlocation : tree.destination directory = .ok location)
    (hrun : (RunState.starting tree).run job schedule = some (.ended (.error e) after))
    (hfail : QueriesFail job tree schedule model) :
    after.content? (location ++ [ModelFile.queries.nameFor model]) =
      tree.content? (location ++ [ModelFile.queries.nameFor model]) := by
  obtain ⟨front, place, back, found, emission, worker, rest, emitted, failure, rfl, hfront,
    hworker, rfl, hphase, hprepare⟩ := hfail
  rw [RunState.run_append hfront] at hrun
  obtain ⟨moves, last, hmoves, hlast, rfl⟩ := RunState.exists_failed_emission hrun
  obtain ⟨made, hbegun, hreach⟩ := (Reaches.start.run hfront).follows
  have hnamed := hbegun.named
  rw [hdirectory] at hnamed
  cases hnamed
  obtain ⟨other, hplaced⟩ := hbegun.exists_placed hproper
  have hdest := hplaced.destination
  rw [hlocation] at hdest
  cases hdest
  cases moves with
  | nil => cases hmoves
  | cons move moves =>
      cases hmoves
      rw [← (hbegun.grows fun _ => False).content? not_false]
      exact content?_congr
        (hreach.get?_of_unprepared hplaced.settles hworker hphase hprepare hlast)

/-- A run that fails leaves alone all files but those that it has generated.  The files beside
the package are as they were; so are the queries of every model that could not be prepared; and
so are all files in the package that are no queries. -/
theorem failed_leaves
    (hproper : Proper tree)
    (hdirectory : job.settings.outputDirectory tree.workingDirectory = .ok directory)
    (hrun : (RunState.starting tree).run job schedule = some (.ended (.error e) after)) :
    (∀ above name,
      tree.destination (Providers.directoryOf directory) = .ok above →
        after.content? (above ++ [name]) = tree.content? (above ++ [name])) ∧
    ∀ location,
      tree.destination directory = .ok location →
        (∀ model,
          QueriesFail job tree schedule model →
            after.content? (location ++ [ModelFile.queries.nameFor model]) =
              tree.content? (location ++ [ModelFile.queries.nameFor model])) ∧
        ∀ name content,
          ¬ "_gen.go".toList <:+ name.toList →
            tree.content? (location ++ [name]) = some content →
              after.content? (location ++ [name]) = some content := by
  have hreach : Reaches job tree (.ended (.error e) after) := Reaches.start.run hrun
  refine ⟨fun above name habove => ?_, fun location hlocation => ⟨fun model hfail => ?_, ?_⟩⟩
  · exact hreach.follows.content?_beside hproper hdirectory habove name
  · exact content?_of_queriesFail hproper hdirectory hlocation hrun hfail
  · intro name content hname hfile
    have hgoes : job.GoesTo tree location := by
      intro other hother
      rw [hdirectory] at hother
      cases hother
      exact hlocation
    have hother : ∀ model : GoStruct, ModelFile.queries.nameFor model ≠ name := by
      rintro model rfl
      exact hname ⟨model.fileName.toList, by simp [ModelFile.nameFor]⟩
    exact content?_eq_some_iff.mpr (kept_of_history (history_of_reaches location hreach)
      ⟨tree, hproper, hgoes, .start⟩ hother (content?_eq_some_iff.mp hfile))

/-! ## A formatter that takes nothing -/

/-- A run for one table whose formatter rejects every source. -/
def rejectedJob : GenerationJob :=
  { usersJob with formatter := ⟨"strict", fun _ _ => .error (.tool "rejected")⟩ }

/-- A package with queries from an earlier run and a file of notes, beside a provider file. -/
def rejectedTree : FileTree :=
  (usersMade.place ["db", "db", "user_gen.go"] (.file (.text "old"))).place
    ["db", "db", "notes.md"] (.file (.text "mine"))

/-- The worker comes to its queries. -/
def beforeRejection : List RunMove :=
  [.next, .emission .submitter, .emission .submitter, .emission (.worker 0)]

/-- After the queries were rejected, the worker ends, and the run fails. -/
def afterRejection : List RunMove :=
  [.emission (.worker 0), .emission (.worker 0), .emission (.worker 0), .emission .submitter,
    .emission .submitter, .next]

theorem queriesFail_rejected :
    QueriesFail rejectedJob rejectedTree
      (beforeRejection ++ .emission (.worker 0) :: afterRejection) usersModel :=
  ⟨beforeRejection, 0, afterRejection, ⟨"db/db"⟩, _, ⟨usersModel, 0, _⟩, _, _, _, rfl, rfl, rfl,
    rfl, rfl, rfl⟩

/-- A run whose queries are rejected leaves the queries of the run before it, the notes beside
them and the provider file. -/
theorem rejected_leaves :
    ∃ e after,
      (RunState.starting rejectedTree).run rejectedJob
          (beforeRejection ++ .emission (.worker 0) :: afterRejection) =
        some (.ended (.error e) after) ∧
      after.content? ["db", "app.go"] = some (.text (Insertion.repositoryMarker ++ "\n")) ∧
      after.content? ["db", "db", "user_gen.go"] = some (.text "old") ∧
      after.content? ["db", "db", "notes.md"] = some (.text "mine") := by
  obtain ⟨e, after, hrun⟩ : ∃ e after, (RunState.starting rejectedTree).run rejectedJob
      (beforeRejection ++ .emission (.worker 0) :: afterRejection) =
        some (.ended (.error e) after) := ⟨_, _, rfl⟩
  have hproper : Proper rejectedTree := proper_of_nodes (by decide) rfl
  obtain ⟨hbeside, hpackage⟩ := failed_leaves hproper rfl hrun
  obtain ⟨hqueries, hothers⟩ := hpackage ["db", "db"] rfl
  refine ⟨e, after, hrun, ?_, ?_, ?_⟩
  · exact (hbeside ["db"] "app.go" rfl).trans (by decide +kernel)
  · exact (hqueries usersModel queriesFail_rejected).trans (by decide +kernel)
  · exact hothers "notes.md" _ (by decide) (by decide +kernel)

end Generation
end GormForge
