import GormForge.Generation.Run
import GormForge.Proofs.Model.Indexes

/-!
# Requested tables

What a run records about the tables it is asked for, and that tables without a model leave
nothing else behind.

**Input.**  Any generator state and any list of tables, in which a table can come up again.

**Algorithm.**  Where a table is recorded depends on the table alone.  A table that is not listed
changes nothing but the list it is recorded in, so that leaving it out leaves the rest as it was.

**Results.**
* `warnings_of_build`: a table that gives no model gives no warning.
* `placeOf_eq`: a table fails by its struct name or its columns, and is ignored if it has none.
* `recordTable_of_listed`, `recordTable_of_ignored`, `recordTable_of_failed`: all that reading
  one table does.
* `addTables_accounts`: the tables asked for are recorded once each and in order, and those that
  are listed would have led to the same models by themselves.
-/

namespace GormForge

variable {settings : GenerationSettings}
variable {source : SchemaSource}
variable {table : String}

/-! ## Tables without a model -/

theorem SchemaSource.warnings_of_introspect
    {withIndexes : Bool}
    {found : Introspection}
    (h : source.introspect table withIndexes = .ok found)
    (hcolumns : found.columns = []) :
    found.warnings = [] := by
  unfold introspect at h
  split at h
  · cases h
  · next columns _ =>
      simp only at h
      split at h
      · cases h
        rfl
      · next hindexed =>
          -- With columns to attach indexes to, there are columns afterwards.
          have hne : columns ≠ [] := by
            intro hnil
            simp [hnil] at hindexed
          split at h
          · cases h
            simp [hne] at hcolumns
          · cases h
            simp [hne] at hcolumns

/-- A table that gives no model gives no warning. -/
theorem GoStruct.warnings_of_build
    {naming : NamingConvention}
    {options : FieldOptions}
    {package structName : String}
    {built : GoStruct.Built}
    (h : GoStruct.build source naming options package table structName = .ok built)
    (hmodel : built.model = none) :
    built.warnings = [] := by
  unfold build at h
  split at h
  · cases h
  · cases h
    rfl
  · next hname =>
      split at h
      · cases h
      · next found hfound =>
          simp only [ofColumns?, hname, Bool.not_true, Bool.false_or] at h
          split at h
          · cases h
          · next heq =>
              cases h
              obtain rfl : _ = none := hmodel
              split at heq
              · next hempty => exact source.warnings_of_introspect hfound (by simpa using hempty)
              · cases heq

/-- Under a name that can be used, a table whose columns can be read has a model, unless it has no
columns. -/
theorem GoStruct.exists_build
    {structName : String}
    {columns : List Column}
    (naming : NamingConvention)
    (options : FieldOptions)
    (package : String)
    (hname : checkName table structName = .ok true)
    (hcolumns : source.columns table = .ok columns) :
    ∃ built, build source naming options package table structName = .ok built ∧
      (built.model = none ↔ columns = []) := by
  obtain ⟨found, hfound, hbare⟩ := SchemaSource.exists_introspect options.indexTag hcolumns
  have hempty : found.columns = [] ↔ columns = [] := by
    rw [← List.map_eq_nil_iff, hbare, List.map_eq_nil_iff]
  by_cases hnil : columns = []
  · refine ⟨⟨none, found.warnings⟩, ?_, by simp [hnil]⟩
    simp [build, ofColumns?, hname, hfound, hempty.mpr hnil]
  · refine ⟨⟨some (ofColumns table structName package found.columns naming options),
      found.warnings⟩, ?_, by simp [hnil]⟩
    simp [build, ofColumns?, hname, hfound, hempty, hnil]

namespace Generation

variable {state : Generation}

/-! ## One table -/

/-- The lists in which a run records tables. -/
inductive Place where
  | listed
  | ignored
  | failed
  deriving Repr, DecidableEq

/-- Where a table is recorded, by what reading it and nothing else returns. -/
def placeOf (settings : GenerationSettings) (source : SchemaSource) (table : String) : Place :=
  match (addTable settings source {} table).1 with
  | .ok (.added _ _) => .listed
  | .ok .ignored => .ignored
  | .error _ => .failed

theorem placeOf_of_build_error
    {e : GenerateError}
    (h : GoStruct.build source settings.naming settings.fields settings.goPackage table
      (settings.naming.structName table) = .error e) :
    placeOf settings source table = .failed := by
  simp only [placeOf, addTable, h]

theorem placeOf_of_build_ok
    {built : GoStruct.Built}
    (h : GoStruct.build source settings.naming settings.fields settings.goPackage table
      (settings.naming.structName table) = .ok built) :
    placeOf settings source table = if built.model = none then .ignored else .listed := by
  cases hmodel : built.model with
  | none => simp [placeOf, addTable, h, hmodel]
  | some model => simp [placeOf, addTable, h, hmodel]

/-- All the ways in which reading a table can end: its struct name may be empty or no name, and then
its columns may be unreadable or there may be none. -/
theorem placeOf_eq
    (settings : GenerationSettings)
    (source : SchemaSource)
    (table : String) :
    placeOf settings source table =
      if settings.naming.structName table = "" then .ignored
      else if Go.isExportedWord (settings.naming.structName table) = true then
        match source.columns table with
        | .error _ => .failed
        | .ok columns => if columns = [] then .ignored else .listed
      else .failed := by
  by_cases hempty : settings.naming.structName table = ""
  · rw [if_pos hempty]
    have hbuild : GoStruct.build source settings.naming settings.fields settings.goPackage table
        (settings.naming.structName table) = .ok {} := by
      simp [GoStruct.build, GoStruct.checkName, hempty]
    rw [placeOf_of_build_ok hbuild, if_pos rfl]
  · rw [if_neg hempty]
    by_cases hword : Go.isExportedWord (settings.naming.structName table) = true
    · rw [if_pos hword]
      have hname : GoStruct.checkName table (settings.naming.structName table) = .ok true :=
        GoStruct.checkName_eq_ok_true_iff.mpr hword
      cases hcolumns : source.columns table with
      | error e =>
          have hbuild : GoStruct.build source settings.naming settings.fields settings.goPackage
              table (settings.naming.structName table) = .error (.schema e) := by
            simp only [GoStruct.build, hname, SchemaSource.introspect, hcolumns]
          exact placeOf_of_build_error hbuild
      | ok columns =>
          obtain ⟨built, hbuilt, hmodel⟩ := GoStruct.exists_build settings.naming settings.fields
            settings.goPackage hname hcolumns
          simp only [placeOf_of_build_ok hbuilt, hmodel]
    · rw [if_neg hword]
      have hbuild : GoStruct.build source settings.naming settings.fields settings.goPackage table
          (settings.naming.structName table) =
            .error (.invalidStructName table (settings.naming.structName table)) := by
        simp [GoStruct.build, GoStruct.checkName, hempty, hword]
      exact placeOf_of_build_error hbuild

/-- The state with other tables recorded as ignored and as failed. -/
def withUnlisted (state : Generation) (ignored : List String) (failed : List TableFailure) :
    Generation :=
  { state with report := { state.report with ignored := ignored, failed := failed } }

/-- A table that is listed has a model, whatever was read before. -/
theorem recordTable_of_listed
    (h : placeOf settings source table = .listed) :
    ∃ (model : GoStruct) (warnings : List String), ∀ state,
      recordTable settings source state table =
        { models := Keyed.put (settings.naming.structName table) model state.models
          report := { state.report with
            tables := state.report.tables ++ [table]
            warnings := state.report.warnings ++ warnings } } := by
  cases hbuild : GoStruct.build source settings.naming settings.fields settings.goPackage table
      (settings.naming.structName table) with
  | error e => simp [placeOf_of_build_error hbuild] at h
  | ok built =>
      cases hmodel : built.model with
      | none => simp [placeOf_of_build_ok hbuild, hmodel] at h
      | some model =>
          exact ⟨model, built.warnings, fun state => by
            simp [recordTable, addTable, hbuild, hmodel]⟩

/-- A table that is ignored leaves its name and nothing else. -/
theorem recordTable_of_ignored
    (state : Generation)
    (h : placeOf settings source table = .ignored) :
    recordTable settings source state table =
      state.withUnlisted (state.report.ignored ++ [table]) state.report.failed := by
  cases hbuild : GoStruct.build source settings.naming settings.fields settings.goPackage table
      (settings.naming.structName table) with
  | error e => simp [placeOf_of_build_error hbuild] at h
  | ok built =>
      cases hmodel : built.model with
      | none =>
          have hwarnings := GoStruct.warnings_of_build hbuild hmodel
          simp [recordTable, addTable, withUnlisted, hbuild, hmodel, hwarnings]
      | some model => simp [placeOf_of_build_ok hbuild, hmodel] at h

/-- A table that fails leaves its failure and nothing else. -/
theorem recordTable_of_failed
    (h : placeOf settings source table = .failed) :
    ∃ e, (addTable settings source {} table).1 = .error e ∧ ∀ state,
      recordTable settings source state table =
        state.withUnlisted state.report.ignored (state.report.failed ++ [⟨table, e⟩]) := by
  cases hbuild : GoStruct.build source settings.naming settings.fields settings.goPackage table
      (settings.naming.structName table) with
  | error e =>
      exact ⟨e, by simp [addTable, hbuild], fun state => by
        simp [recordTable, addTable, withUnlisted, hbuild]⟩
  | ok built =>
      rw [placeOf_of_build_ok hbuild] at h
      split at h <;> cases h

/-! ## Many tables -/

theorem addTables_cons
    (rest : List String) :
    addTables settings source state (table :: rest) =
      addTables settings source (recordTable settings source state table) rest := by
  unfold addTables
  rw [List.foldl_cons]

/-- The tables of a list that are recorded in one place. -/
def placedIn (settings : GenerationSettings) (source : SchemaSource) (place : Place)
    (tables : List String) : List String :=
  tables.filter fun table => placeOf settings source table = place

theorem placedIn_cons
    (place : Place)
    (rest : List String) :
    placedIn settings source place (table :: rest) =
      if placeOf settings source table = place then
        table :: placedIn settings source place rest
      else
        placedIn settings source place rest := by
  unfold placedIn
  simp only [List.filter_cons, decide_eq_true_eq]

/-- Tables are recorded in the order in which they are asked for. -/
theorem addTables_records
    (settings : GenerationSettings)
    (source : SchemaSource)
    (state : Generation)
    (tables : List String) :
    (addTables settings source state tables).report.tables =
        state.report.tables ++ placedIn settings source .listed tables ∧
      (addTables settings source state tables).report.ignored =
        state.report.ignored ++ placedIn settings source .ignored tables ∧
      ∃ failures,
        (addTables settings source state tables).report.failed = state.report.failed ++ failures ∧
        failures.map (·.table) = placedIn settings source .failed tables ∧
        ∀ failure ∈ failures,
          (addTable settings source {} failure.table).1 = .error failure.error := by
  induction tables generalizing state with
  | nil => exact ⟨by simp [addTables, placedIn], by simp [addTables, placedIn],
      [], by simp [addTables], rfl, by simp⟩
  | cons table rest ih =>
      obtain ⟨htables, hignored, failures, hfailed, hmap, herrors⟩ :=
        ih (recordTable settings source state table)
      rw [addTables_cons, htables, hignored, hfailed]
      simp only [placedIn_cons]
      cases hplace : placeOf settings source table with
      | listed =>
          obtain ⟨model, warnings, hrecord⟩ := recordTable_of_listed hplace
          rw [hrecord]
          exact ⟨by simp, by simp, failures, rfl, by simpa using hmap, herrors⟩
      | ignored =>
          rw [recordTable_of_ignored state hplace]
          exact ⟨by simp [withUnlisted], by simp [withUnlisted], failures, rfl,
            by simpa using hmap, herrors⟩
      | failed =>
          obtain ⟨e, he, hrecord⟩ := recordTable_of_failed hplace
          rw [hrecord]
          refine ⟨by simp [withUnlisted], by simp [withUnlisted], ⟨table, e⟩ :: failures,
            by simp [withUnlisted], by simpa using hmap, ?_⟩
          exact List.forall_mem_cons.mpr ⟨he, herrors⟩

/-- Reading listed tables does not depend on what was recorded about other tables. -/
theorem addTables_withUnlisted
    {tables : List String}
    (ignored : List String)
    (failed : List TableFailure)
    (h : ∀ table ∈ tables, placeOf settings source table = .listed) :
    addTables settings source (state.withUnlisted ignored failed) tables =
      (addTables settings source state tables).withUnlisted ignored failed := by
  induction tables generalizing state with
  | nil => rfl
  | cons table rest ih =>
      obtain ⟨hlisted, hrest⟩ := List.forall_mem_cons.mp h
      obtain ⟨model, warnings, hrecord⟩ := recordTable_of_listed hlisted
      rw [addTables_cons, addTables_cons, ← ih hrest, hrecord, hrecord]
      rfl

/-- If leaving tables out gives the same state from one record of unlisted tables, then it does
so from any other. -/
theorem addTables_of_withUnlisted
    {listed tables : List String}
    {ignored : List String}
    {failed : List TableFailure}
    (hlisted : ∀ table ∈ listed, placeOf settings source table = .listed)
    (h : addTables settings source (state.withUnlisted ignored failed) listed =
      (addTables settings source (state.withUnlisted ignored failed) tables).withUnlisted
        ignored failed) :
    addTables settings source state listed =
      (addTables settings source (state.withUnlisted ignored failed) tables).withUnlisted
        state.report.ignored state.report.failed := by
  let unlisted := state.withUnlisted ignored failed
  have hback : addTables settings source
      (unlisted.withUnlisted state.report.ignored state.report.failed) listed =
        (addTables settings source unlisted listed).withUnlisted
          state.report.ignored state.report.failed :=
    addTables_withUnlisted state.report.ignored state.report.failed hlisted
  rw [h] at hback
  exact hback

theorem addTables_listed
    (settings : GenerationSettings)
    (source : SchemaSource)
    (state : Generation)
    (tables : List String) :
    addTables settings source state (placedIn settings source .listed tables) =
      (addTables settings source state tables).withUnlisted
        state.report.ignored state.report.failed := by
  induction tables generalizing state with
  | nil => rfl
  | cons table rest ih =>
      have hlisted : ∀ table ∈ placedIn settings source .listed rest,
          placeOf settings source table = .listed :=
        fun table htable => by simpa using (List.mem_filter.mp htable).2
      rw [placedIn_cons, addTables_cons]
      cases hplace : placeOf settings source table with
      | listed =>
          obtain ⟨model, warnings, hrecord⟩ := recordTable_of_listed hplace
          rw [if_pos rfl, addTables_cons, ih, hrecord]
      | ignored =>
          rw [if_neg (by decide), recordTable_of_ignored state hplace]
          exact addTables_of_withUnlisted hlisted (ih _)
      | failed =>
          obtain ⟨e, -, hrecord⟩ := recordTable_of_failed hplace
          rw [if_neg (by decide), hrecord]
          exact addTables_of_withUnlisted hlisted (ih _)

/-- Every table that was asked for is recorded once, in order, and in the place that reading it
alone determines; and asking for the listed ones only would have led to the same state, except
that nothing would have been recorded as ignored or failed. -/
theorem addTables_accounts
    (settings : GenerationSettings)
    (source : SchemaSource)
    (state : Generation)
    (tables : List String) :
    let after := addTables settings source state tables
    after.report.tables = state.report.tables ++ placedIn settings source .listed tables ∧
    after.report.ignored = state.report.ignored ++ placedIn settings source .ignored tables ∧
    (∃ failures,
      after.report.failed = state.report.failed ++ failures ∧
      failures.map (·.table) = placedIn settings source .failed tables ∧
      ∀ failure ∈ failures,
        (addTable settings source {} failure.table).1 = .error failure.error) ∧
    addTables settings source state (placedIn settings source .listed tables) =
      after.withUnlisted state.report.ignored state.report.failed := by
  obtain ⟨htables, hignored, hfailed⟩ := addTables_records settings source state tables
  exact ⟨htables, hignored, hfailed, addTables_listed settings source state tables⟩

example :
    let source : SchemaSource :=
      { dialect := .sqlite
        tables := .ok []
        columns := fun table =>
          if table = "users" then .ok [⟨table, "id", "INTEGER", "integer", false, none, true, true,
            "", none, false, []⟩]
          else if table = "gone" then .error (.query "columns" table "disk I/O error")
          else .ok []
        indexes := fun _ => .ok [] }
    let report :=
      (addTables {} source {} ["gone", "users", "bare", "2fa", "users", "_"]).report
    report.tables = ["users", "users"] ∧ report.ignored = ["bare", "_"] ∧
      report.failed.map (·.table) = ["gone", "2fa"] := by
  decide +kernel

end Generation
end GormForge
