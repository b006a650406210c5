import GormForge.Proofs.Emission.Growth
import GormForge.Proofs.Emission.Planned
import Mathlib.Data.List.Nodup

/-!
# Names of emitted files

Where the files of a model lie, and that the workers of an emission write different files.

**Results.**
* `ModelFile.isName_nameFor`: the name of a file stands for a node in a directory.
* `Job.not_writes_template`: no emission writes a template.
* `Reaches.not_done`: a file that a worker has not behind it was treated by no other worker.
-/

namespace GormForge

open FileTree

/-! ## Names -/

namespace ModelFile

variable {model : GoStruct}
variable {name : String}

@[simp] theorem mem_all
    (file : ModelFile) :
    file ∈ all := by
  cases file <;> simp [all]

/-- The files of a model that come before a file. -/
def earlier : ModelFile → List ModelFile
  | queries => []
  | custom => [queries]

theorem eq_earlier
    {file : ModelFile}
    {front rest : List ModelFile}
    (h : all = front ++ file :: rest) :
    front = file.earlier := by
  cases file <;> rcases front with _ | ⟨_ | _, _ | ⟨_ | _, _⟩⟩ <;> simp_all [all, earlier]

/-- The names of the two files of a model. -/
def namesOf (model : GoStruct) : List String :=
  all.map fun file => file.nameFor model

theorem toList_nameFor
    (file : ModelFile)
    (model : GoStruct) :
    ∃ stem,
      (file.nameFor model).toList = model.fileName.toList ++ stem ++ ['.', 'g', 'o'] ∧
        '/' ∉ stem := by
  cases file with
  | queries => exact ⟨['_', 'g', 'e', 'n'], by simp [nameFor], by decide⟩
  | custom => exact ⟨[], by simp [nameFor], by decide⟩

/-- The name of a file stands for a node in a directory. -/
theorem isName_nameFor
    (h : '/' ∉ model.fileName.toList)
    (file : ModelFile) :
    Path.IsName (file.nameFor model) := by
  obtain ⟨stem, hname, hstem⟩ := toList_nameFor file model
  constructor
  · rw [hname]
    simp [h, hstem]
  · rw [hname]
    simp [Path.isIdle, List.append_eq_singleton_iff]
  · rw [hname]
    intro hup
    have hlast := congrArg List.getLast? hup
    simp at hlast

theorem isName_key
    (kind : Template.Kind) :
    Path.IsName kind.key := by
  cases kind <;> exact ⟨by decide, by decide, by decide⟩

/-- The two files of a model have different names. -/
theorem eq_of_nameFor_eq
    {file other : ModelFile}
    (h : file.nameFor model = other.nameFor model) :
    file = other := by
  cases file <;> cases other <;> simp [nameFor, String.ext_iff] at h ⊢

/-- No file of a model has the name of a template. -/
theorem nameFor_ne_key
    (file : ModelFile)
    (model : GoStruct)
    (kind : Template.Kind) :
    file.nameFor model ≠ kind.key := by
  intro heq
  obtain ⟨stem, hname, -⟩ := toList_nameFor file model
  have hlast : (file.nameFor model).toList.getLast? = some 'o' := by simp [hname]
  rw [heq] at hlast
  cases kind <;> simp [Template.Kind.key] at hlast

end ModelFile

/-! ## Locations -/

namespace Emission

variable {job : Job}
variable {tree : FileTree}
variable {state : State}

/-- No emission writes a template. -/
theorem Job.not_writes_template
    {seen : FileTree}
    {path : Path}
    {kind : Template.Kind}
    {location : Location}
    (hslash : ∀ model ∈ job.models, '/' ∉ model.fileName.toList)
    (hres : seen.resolve (path.child kind.key) = .ok location) :
    ¬ job.Writes tree location := by
  rintro ⟨model, hmodel, file, hdest⟩
  obtain ⟨_, -, -, hkey⟩ := resolve_child (ModelFile.isName_key kind) hres
  obtain ⟨_, -, hname⟩ :=
    destination_child (ModelFile.isName_nameFor (hslash model hmodel) file) hdest
  rw [hkey] at hname
  exact ModelFile.nameFor_ne_key file model kind
    (by simpa using (List.append_inj' hname rfl).2.symm)

/-! ## Workers -/

/-- A name was treated by some worker. -/
def State.Done (state : State) (name : String) : Prop :=
  ∃ worker ∈ state.workers, ∃ file ∈ worker.phase.behind, name = file.nameFor worker.model

theorem State.done_iff
    {front back : List Worker}
    {worker : Worker}
    {name : String}
    (hw : state.workers = front ++ worker :: back) :
    state.Done name ↔
      (∃ file ∈ worker.phase.behind, name = file.nameFor worker.model) ∨
        ∃ other ∈ front ++ back, ∃ file ∈ other.phase.behind, name = file.nameFor other.model := by
  unfold State.Done
  rw [hw]
  constructor
  · rintro ⟨other, hin, hother⟩
    rcases mem_middle_iff.mp hin with rfl | hin
    · exact Or.inl hother
    · exact Or.inr ⟨other, hin, hother⟩
  · rintro (hworker | ⟨other, hin, hother⟩)
    · exact ⟨worker, mem_middle_iff.mpr (Or.inl rfl), hworker⟩
    · exact ⟨other, mem_middle_iff.mpr (Or.inr hin), hother⟩

/-- A worker that has just started has treated no name. -/
theorem State.done_begin
    {model : GoStruct}
    {index : Nat}
    {after : State}
    {name : String}
    (hw : after.workers = state.workers ++ [{ model := model, index := index }]) :
    after.Done name ↔ state.Done name := by
  unfold State.Done
  rw [hw]
  constructor
  · rintro ⟨worker, hworker, file, hfile, heq⟩
    rcases List.mem_append.mp hworker with hworker | hworker
    · exact ⟨worker, hworker, file, hfile, heq⟩
    · rw [List.mem_singleton.mp hworker] at hfile
      cases hfile
  · rintro ⟨worker, hworker, hdone⟩
    exact ⟨worker, List.mem_append_left _ hworker, hdone⟩

/-- A worker that has one more file behind it has treated the name of that file. -/
theorem State.done_work
    {front back : List Worker}
    {worker : Worker}
    {later : WorkerPhase}
    {after : State}
    {file : ModelFile}
    {name : String}
    (hw : state.workers = front ++ worker :: back)
    (hafter : after.workers = front ++ { worker with phase := later } :: back)
    (hbehind : later.behind = worker.phase.behind ++ [file]) :
    after.Done name ↔ state.Done name ∨ name = file.nameFor worker.model := by
  rw [State.done_iff hw, State.done_iff hafter, hbehind]
  simp only [List.mem_append, List.mem_singleton]
  constructor
  · rintro (⟨seen, hseen | rfl, heq⟩ | hother)
    · exact Or.inl (Or.inl ⟨seen, hseen, heq⟩)
    · exact Or.inr heq
    · exact Or.inl (Or.inr hother)
  · rintro ((⟨seen, hseen, heq⟩ | hother) | heq)
    · exact Or.inl ⟨seen, Or.inl hseen, heq⟩
    · exact Or.inr hother
    · exact Or.inl ⟨file, Or.inr rfl, heq⟩

/-- All names that an emission treats. -/
def Job.names (job : Job) : List String :=
  job.models.flatMap ModelFile.namesOf

theorem mem_namesOf
    (file : ModelFile)
    (model : GoStruct) :
    file.nameFor model ∈ ModelFile.namesOf model :=
  List.mem_map.mpr ⟨file, ModelFile.mem_all file, rfl⟩

theorem mem_names
    {model : GoStruct}
    (hmodel : model ∈ job.models)
    (file : ModelFile) :
    file.nameFor model ∈ job.names :=
  List.mem_flatMap.mpr ⟨model, hmodel, mem_namesOf file model⟩

theorem exists_of_mem_names
    {name : String}
    (h : name ∈ job.names) :
    ∃ model ∈ job.models, ∃ file : ModelFile, name = file.nameFor model := by
  obtain ⟨model, hmodel, hname⟩ := List.mem_flatMap.mp h
  obtain ⟨file, -, rfl⟩ := List.mem_map.mp hname
  exact ⟨model, hmodel, file, rfl⟩

theorem Reaches.mem_names_of_done
    (h : Reaches job tree state)
    {name : String}
    (hdone : state.Done name) :
    name ∈ job.names := by
  obtain ⟨worker, hw, file, -, rfl⟩ := hdone
  exact mem_names (h.model_mem hw) file

theorem State.not_done_start
    (job : Job)
    (tree : FileTree)
    (name : String) :
    ¬ (State.start job tree).Done name := by
  rintro ⟨worker, hw, -⟩
  simp [State.start] at hw

/-- The names of the files of the workers are different, as those of the models are. -/
theorem Reaches.nodup_names
    (h : Reaches job tree state)
    (hnames : job.names.Nodup) :
    (state.workers.flatMap fun worker => ModelFile.namesOf worker.model).Nodup := by
  obtain ⟨left, hentries, -⟩ := h.entries
  have hmodels : state.workers.map (·.model) ++ left.map Prod.fst = job.models := by
    have hfst := congrArg (List.map Prod.fst) hentries
    simpa [Worker.entry, Function.comp_def, List.zipIdx_map_fst] using hfst
  unfold Job.names at hnames
  rw [← hmodels, List.flatMap_append, List.flatMap_map] at hnames
  exact List.Nodup.of_append_left hnames

/-- Different workers write files with different names. -/
theorem Reaches.nameFor_ne
    (h : Reaches job tree state)
    (hnames : job.names.Nodup)
    {front back : List Worker}
    {worker other : Worker}
    (hw : state.workers = front ++ worker :: back)
    (hother : other ∈ front ++ back)
    (file file' : ModelFile) :
    file.nameFor worker.model ≠ file'.nameFor other.model := by
  have hnodup := h.nodup_names hnames
  have hperm : (front ++ worker :: back).Perm (worker :: (front ++ back)) :=
    List.perm_middle
  rw [hw, (hperm.flatMap_right _).nodup_iff, List.flatMap_cons, List.nodup_append] at hnodup
  exact hnodup.2.2 _ (mem_namesOf file worker.model) _
    (List.mem_flatMap.mpr ⟨other, hother, mem_namesOf file' other.model⟩)

/-- A file that a worker has not behind it was treated by no other worker. -/
theorem Reaches.not_done
    (h : Reaches job tree state)
    (hnames : job.names.Nodup)
    {front back : List Worker}
    {worker : Worker}
    {file : ModelFile}
    {rest : List ModelFile}
    (hw : state.workers = front ++ worker :: back)
    (hall : ModelFile.all = worker.phase.behind ++ file :: rest) :
    ¬ state.Done (file.nameFor worker.model) := by
  have hnodup := h.nodup_names hnames
  rw [hw, List.flatMap_append, List.flatMap_cons] at hnodup
  have hown : ModelFile.namesOf worker.model =
      worker.phase.behind.map (·.nameFor worker.model) ++ file.nameFor worker.model ::
        rest.map (·.nameFor worker.model) := by
    rw [ModelFile.namesOf, hall, List.map_append, List.map_cons]
  rw [hown, List.append_assoc, List.cons_append, ← List.append_assoc, List.nodup_middle,
    List.nodup_cons] at hnodup
  rintro ⟨other, hother, seen, hseen, heq⟩
  apply hnodup.1
  rw [hw] at hother
  rw [heq]
  simp only [List.mem_append, List.mem_flatMap, List.mem_map]
  rcases List.mem_append.mp hother with hfront | hrest
  · exact Or.inl (Or.inl ⟨other, hfront, mem_namesOf seen other.model⟩)
  · rcases List.mem_cons.mp hrest with rfl | hback
    · exact Or.inl (Or.inr ⟨seen, hseen, rfl⟩)
    · exact Or.inr (Or.inr ⟨other, hback, mem_namesOf seen other.model⟩)

end Emission
end GormForge
