import GormForge.Proofs.Generation.Again

/-!
# Files to be written

Where the files of the collected models go, and that no two of them go to the same place.

**Input.**  Tables are read one at a time, with or without a record of failures, and the
database may change from one call to the next.

**Results.**
* `Path.eq_of_components_child`: names in a directory lead to paths with different components.
* `Generation.Collecting.nodup_targets`: all files of the collected models have different paths.
-/

namespace GormForge

/-! ## Components -/

namespace Path

variable {name other : String}

/-- The name of a file in a directory is its last component. -/
theorem getLast?_components_child
    (base : Path)
    (h : IsName name) :
    (base.child name).components.getLast? = some (.name name) :=
  fileName?_eq_some_iff_getLast?.mp (fileName?_child base h)

theorem eq_of_components_child
    {base : Path}
    (hname : IsName name)
    (hother : IsName other)
    (h : (base.child name).components = (base.child other).components) :
    name = other := by
  have hlast := congrArg List.getLast? h
  rw [getLast?_components_child base hname, getLast?_components_child base hother] at hlast
  simpa using hlast

end Path

namespace Generation

variable {settings : GenerationSettings}
variable {state : Generation}

/-- A state that reading tables one after the other can lead to. -/
inductive Collecting (settings : GenerationSettings) : Generation → Prop where
  | start : Collecting settings {}
  | add {state : Generation} (source : SchemaSource) (table : String) :
      Collecting settings state → Collecting settings (addTable settings source state table).2
  | record {state : Generation} (source : SchemaSource) (table : String) :
      Collecting settings state → Collecting settings (recordTable settings source state table)

theorem Collecting.addTables
    (h : Collecting settings state)
    (source : SchemaSource)
    (tables : List String) :
    Collecting settings (addTables settings source state tables) := by
  unfold Generation.addTables
  induction tables generalizing state with
  | nil => exact h
  | cons table rest ih =>
      rw [List.foldl_cons]
      exact ih (h.record source table)

theorem Collecting.collects
    (h : Collecting settings state) :
    Collects settings state := by
  induction h with
  | start => exact collects_nil
  | add source table _ ih => exact ih.addTable source table
  | record source table _ ih => exact ih.recordTable source table

/-- Where the files of the collected models go. -/
def targets (state : Generation) (directory : Path) : List Path :=
  (state.models.map Prod.snd).flatMap fun model =>
    ModelFile.all.map fun file => file.pathIn directory model

theorem targets_eq
    (state : Generation)
    (directory : Path) :
    state.targets directory =
      ((state.models.map Prod.snd).flatMap ModelFile.namesOf).map directory.child := by
  unfold targets ModelFile.namesOf ModelFile.pathIn
  rw [List.map_flatMap]
  simp only [List.map_map]
  rfl

theorem length_targets
    (state : Generation)
    (directory : Path) :
    (state.targets directory).length = 2 * state.models.length := by
  rw [targets_eq, List.length_map, List.length_flatMap]
  simp [ModelFile.namesOf, ModelFile.all, Function.comp_def, Nat.mul_comm]

/-- Whatever tables were read, each model stands under the name of its struct, and its two files
and those of all other models have different paths. -/
theorem Collecting.nodup_targets
    (h : Collecting settings state)
    (directory : Path) :
    (∀ entry ∈ state.models, entry.1 = entry.2.structName) ∧
      (state.targets directory).length = 2 * state.models.length ∧
      ((state.targets directory).map Path.components).Nodup := by
  have hcollects := h.collects
  refine ⟨fun entry hentry => (hcollects.entry entry hentry).1, length_targets state directory, ?_⟩
  have hnames : ∀ name ∈ (state.models.map Prod.snd).flatMap ModelFile.namesOf,
      Path.IsName name := by
    intro name hname
    obtain ⟨model, hmodel, hfile⟩ := List.mem_flatMap.mp hname
    obtain ⟨file, -, rfl⟩ := List.mem_map.mp hfile
    exact ModelFile.isName_nameFor (hcollects.draws hmodel).noSlash_fileName file
  rw [targets_eq, List.map_map]
  exact List.Nodup.map_on
    (fun name hname other hother heq =>
      Path.eq_of_components_child (hnames name hname) (hnames other hother) heq)
    hcollects.nodup_names

/-- Two tables that were read, one by a single call. -/
def ordersUsers : Generation :=
  (addTable {} keySource (recordTable {} keySource {} "orders") "users").2

theorem ordersUsers_targets :
    Collecting {} ordersUsers ∧
      (ordersUsers.targets ⟨"db"⟩).map Path.text =
        ["db/order_gen.go", "db/order.go", "db/user_gen.go", "db/user.go"] ∧
      (∀ entry ∈ ordersUsers.models, entry.1 = entry.2.structName) ∧
      (ordersUsers.targets ⟨"db"⟩).length = 2 * ordersUsers.models.length ∧
      ((ordersUsers.targets ⟨"db"⟩).map Path.components).Nodup := by
  have hcollecting : Collecting {} ordersUsers :=
    (Collecting.start.record keySource "orders").add keySource "users"
  exact ⟨hcollecting, by decide +kernel, hcollecting.nodup_targets ⟨"db"⟩⟩

end Generation
end GormForge
