import GormForge.Proofs.Emission.Accounting
import GormForge.Proofs.Template.Override

/-!
# What an emission does to the tree

An emission makes directories and writes the files of its models, and nothing else.

**Results.**
* `Reaches.grows`: the tree grows, and files are written only where those of the models go.
-/

namespace GormForge

open FileTree

/-! ## Rendering -/

namespace Emitter

variable {emitter : Emitter}
variable {directory : Path}
variable {model : GoStruct}
variable {file : ModelFile}
variable {tree other : FileTree}

/-- Rendering depends on the tree through the template only. -/
theorem render_congr
    (h : emitter.library.overrideOf? tree file.kind =
      emitter.library.overrideOf? other file.kind) :
    emitter.render directory model file tree = emitter.render directory model file other := by
  simp only [render, Template.Library.renderWith, h]

/-- Storing a file writes at the path of that file only. -/
theorem grows_storeFile
    {writes : Location → Prop}
    {prepared : Option String}
    (hwrites : ∀ location,
      tree.destination (file.pathIn directory model) = .ok location → writes location) :
    Grows writes tree (storeFile directory model file prepared tree).2 := by
  apply grows_bind
  · apply grows_adapt
    apply GeneratedFile.grows_store
    intro later location hgrows hres
    apply hwrites
    rw [← hgrows.destination]
    exact destination_of_resolve hres
  · intro _ made _
    exact Grows.refl _ _

end Emitter

/-! ## Growth -/

namespace Emission

variable {job : Job}
variable {tree : FileTree}
variable {state : State}

/-- The locations at which the files of the models of a job go. -/
def Job.Writes (job : Job) (tree : FileTree) (location : Location) : Prop :=
  ∃ model ∈ job.models, ∃ file : ModelFile,
    tree.destination (file.pathIn job.directory model) = .ok location

/-- Workers are started for models of the job. -/
theorem Reaches.model_mem
    (h : Reaches job tree state)
    {worker : Worker}
    (hw : worker ∈ state.workers) :
    worker.model ∈ job.models := by
  obtain ⟨left, hentries, -⟩ := h.entries
  have hmem : worker.entry ∈ job.models.zipIdx := by
    rw [← hentries]
    exact List.mem_append_left _ (List.mem_map_of_mem hw)
  exact List.fst_mem_of_mem_zipIdx hmem

/-- A step of a worker writes no file but those of its model. -/
theorem WorkerPhase.grows_next
    {model : GoStruct}
    {stopped : Bool}
    {before after : FileTree}
    {phase later : WorkerPhase}
    {writes : Location → Prop}
    (hn : phase.next job model stopped before = some (later, after))
    (hwrites : ∀ file location,
      before.destination (ModelFile.pathIn file job.directory model) = .ok location →
        writes location) :
    Grows writes before after := by
  rcases WorkerPhase.next_tree hn with rfl | ⟨file, prepared, rest, emitted, -, rfl⟩
  · exact Grows.refl _ _
  · exact Emitter.grows_storeFile (hwrites file)

/-- A move writes no file but those of the models. -/
theorem Reaches.grows_move
    (h : Reaches job tree state)
    (hroot : ∀ p, state.tree.destination p = tree.destination p)
    {move : Move}
    {after : State}
    (hmove : state.move job move = some after) :
    Grows (job.Writes tree) state.tree after.tree := by
  cases State.step_of_move hmove with
  | finish | enter | giveUp | begin | join => exact Grows.refl _ _
  | @work front back worker later made hw hn =>
      refine WorkerPhase.grows_next hn fun file location hdest => ?_
      rw [hroot] at hdest
      exact ⟨worker.model, h.model_mem (by simp [hw]), file, hdest⟩

/-- An emission makes directories and writes the files of its models. -/
theorem Reaches.grows
    (h : Reaches job tree state) :
    Grows (job.Writes tree) tree state.tree := by
  induction h with
  | start => exact Grows.refl _ _
  | move move hreach hmove ih => exact ih.trans (hreach.grows_move ih.destination hmove)

/-- The same holds between any two states of a schedule. -/
theorem Reaches.grows_run
    (h : Reaches job tree state)
    {schedule : List Move}
    {after : State}
    (hrun : state.run job schedule = some after) :
    Grows (job.Writes tree) state.tree after.tree := by
  induction schedule generalizing state with
  | nil =>
      cases hrun
      exact Grows.refl _ _
  | cons move rest ih =>
      obtain ⟨middle, hmove, hrest⟩ := State.run_cons_eq_some_iff.mp hrun
      exact (h.grows_move h.grows.destination hmove).trans (ih (h.move move hmove) hrest)

end Emission
end GormForge
