import GormForge.Proofs.Emission.Results
import GormForge.Proofs.Generation.Again

/-!
# Tables of a report

Which of the tables that a report lists have files in it.

**Input.**  A run for tables that are asked for once.

**Algorithm.**  The models are kept under the names of their structs, so that of all tables with
one struct name the last one gives the model.

**Results.**
* `KeepsLast.addTables`: the model under a name belongs to the last table of that name.
* `Ends.covers`, `Ends.filesOf_eq_nil`: that table has its files, and the others have none.
* `Reaches.covers_iff`: all listed tables have their files exactly if their structs have
  different names.
-/

namespace GormForge

/-- The files of a table in a report. -/
def GenerationReport.filesOf (report : GenerationReport) (table : String) : List EmittedFile :=
  report.files.filter fun file => file.table = table

/-- The files of a struct: generated queries, and queries written by hand. -/
def GenerationJob.pathsOf (directory : Path) (structName : String) : List (String × Path) :=
  [(structName, directory.child (Text.lowerFirst structName ++ "_gen.go")),
    (structName, directory.child (Text.lowerFirst structName ++ ".go"))]

/-- A report lists the two files of a table, each of them once. -/
def GenerationJob.Covers (job : GenerationJob) (tree : FileTree) (report : GenerationReport)
    (table : String) : Prop :=
  ∃ directory,
    job.settings.outputDirectory tree.workingDirectory = .ok directory ∧
      (report.filesOf table).map (fun file => (file.structName, file.path)) =
        GenerationJob.pathsOf directory (job.settings.naming.structName table)

theorem GenerationJob.Covers.filesOf_ne_nil
    {job : GenerationJob}
    {tree : FileTree}
    {report : GenerationReport}
    {table : String}
    (h : job.Covers tree report table) :
    report.filesOf table ≠ [] := by
  obtain ⟨directory, -, hfiles⟩ := h
  intro hnone
  rw [hnone] at hfiles
  cases hfiles

namespace Generation

/-! ## The last table of a name -/

/-- The last of some tables whose structs have a given name. -/
def lastNamed (naming : NamingConvention) (name : String) (tables : List String) :
    Option String :=
  tables.reverse.find? fun table => naming.structName table = name

section LastNamed

variable {naming : NamingConvention}
variable {name table : String}
variable {tables front back : List String}

theorem lastNamed_concat
    (naming : NamingConvention)
    (name : String)
    (tables : List String)
    (table : String) :
    lastNamed naming name (tables ++ [table]) =
      if naming.structName table = name then some table else lastNamed naming name tables := by
  simp [lastNamed, List.find?_cons]
  split <;> simp_all

theorem structName_of_lastNamed
    (h : lastNamed naming name tables = some table) :
    naming.structName table = name := by
  simpa using List.find?_some h

/-- A table is the last of its name if no later one has that name. -/
theorem lastNamed_of_notMem
    (h : naming.structName table ∉ back.map naming.structName) :
    lastNamed naming (naming.structName table) (front ++ table :: back) = some table := by
  have hback : back.reverse.find? (fun other =>
      naming.structName other = naming.structName table) = none := by
    rw [List.find?_eq_none]
    intro other hother heq
    exact h (List.mem_map.mpr ⟨other, by simpa using hother, by simpa using heq⟩)
  simp [lastNamed, List.find?_append, hback]

/-- Otherwise the last one comes after it. -/
theorem exists_lastNamed_of_mem
    (front : List String)
    (h : naming.structName table ∈ back.map naming.structName) :
    ∃ other ∈ back,
      lastNamed naming (naming.structName table) (front ++ table :: back) = some other := by
  obtain ⟨later, hlater, hname⟩ := List.mem_map.mp h
  have hsome : (back.reverse.find? fun other =>
      naming.structName other = naming.structName table).isSome = true := by
    rw [List.find?_isSome]
    exact ⟨later, by simpa using hlater, by simpa using hname⟩
  obtain ⟨other, hother⟩ := Option.isSome_iff_exists.mp hsome
  refine ⟨other, by simpa using List.mem_of_find?_eq_some hother, ?_⟩
  simp [lastNamed, List.find?_append, hother]

end LastNamed

/-! ## Collecting -/

section Collecting

variable {settings : GenerationSettings}
variable {source : SchemaSource}
variable {state : Generation}

/-- The model of a table bears its name. -/
theorem tableName_of_build
    {naming : NamingConvention}
    {options : FieldOptions}
    {package table structName : String}
    {built : GoStruct.Built}
    {model : GoStruct}
    (h : GoStruct.build source naming options package table structName = .ok built)
    (hmodel : built.model = some model) :
    model.tableName = table := by
  obtain ⟨-, found, -, rfl⟩ := GoStruct.eq_of_build h hmodel
  rfl

/-- The model under a name belongs to the last table of that name. -/
def KeepsLast (settings : GenerationSettings) (state : Generation) : Prop :=
  ∀ name, (Keyed.get? name state.models).map (·.tableName) =
    lastNamed settings.naming name state.report.tables

/-- A table is listed when it has given a model, and then its model is kept. -/
theorem recordTable_cases
    (settings : GenerationSettings)
    (source : SchemaSource)
    (state : Generation)
    (table : String) :
    ((recordTable settings source state table).models = state.models ∧
      (recordTable settings source state table).report.tables = state.report.tables) ∨
    ∃ model : GoStruct,
      model.tableName = table ∧
        (recordTable settings source state table).models =
          Keyed.put (settings.naming.structName table) model state.models ∧
        (recordTable settings source state table).report.tables =
          state.report.tables ++ [table] := by
  unfold recordTable addTable
  simp only
  cases hbuild : GoStruct.build source settings.naming settings.fields settings.goPackage table
      (settings.naming.structName table) with
  | error e => exact Or.inl ⟨rfl, rfl⟩
  | ok built =>
      cases hmodel : built.model with
      | none => exact Or.inl (by simp [hmodel])
      | some model =>
          right
          exact ⟨model, tableName_of_build hbuild hmodel, by simp [hmodel], by simp [hmodel]⟩

theorem KeepsLast.recordTable
    (h : KeepsLast settings state)
    (table : String) :
    KeepsLast settings (Generation.recordTable settings source state table) := by
  intro name
  rcases recordTable_cases settings source state table with
    ⟨hmodels, htables⟩ | ⟨model, hname, hmodels, htables⟩
  · rw [hmodels, htables]
    exact h name
  · rw [hmodels, htables, Keyed.get?_put, lastNamed_concat]
    split
    · simp [hname]
    · exact h name

theorem KeepsLast.addTables
    (h : KeepsLast settings state)
    (tables : List String) :
    KeepsLast settings (Generation.addTables settings source state tables) := by
  unfold Generation.addTables
  induction tables generalizing state with
  | nil => exact h
  | cons table rest ih =>
      rw [List.foldl_cons]
      exact ih (h.recordTable table)

/-- Tables are listed in the order in which they are asked for, each of them once. -/
theorem exists_sublist_addTables
    (settings : GenerationSettings)
    (source : SchemaSource)
    (state : Generation)
    (tables : List String) :
    ∃ listed,
      listed.Sublist tables ∧
        (addTables settings source state tables).report.tables = state.report.tables ++ listed := by
  unfold addTables
  induction tables generalizing state with
  | nil => exact ⟨[], List.Sublist.refl _, by simp⟩
  | cons table rest ih =>
      obtain ⟨listed, hsub, heq⟩ := ih (recordTable settings source state table)
      rcases recordTable_cases settings source state table with
        ⟨-, htables⟩ | ⟨model, -, -, htables⟩
      · exact ⟨listed, hsub.cons table, by rw [List.foldl_cons, heq, htables]⟩
      · refine ⟨table :: listed, hsub.cons_cons table, ?_⟩
        rw [List.foldl_cons, heq, htables]
        simp

end Collecting

/-! ## Models of tables -/

section Models

variable {job : GenerationJob}
variable {model : GoStruct}
variable {table : String}

theorem keepsLast_collected
    (job : GenerationJob) :
    KeepsLast job.settings job.collected :=
  KeepsLast.addTables (fun _ => rfl) job.tables

theorem nodup_tables
    (h : job.tables.Nodup) :
    job.collected.report.tables.Nodup := by
  obtain ⟨listed, hsub, heq⟩ :=
    exists_sublist_addTables job.settings job.source {} job.tables
  have hlisted : job.collected.report.tables = listed := by
    simpa [GenerationJob.collected] using heq
  rw [hlisted]
  exact hsub.nodup h

/-- The table of a model is the last one of its name. -/
theorem lastNamed_tableName
    (h : model ∈ job.models) :
    lastNamed job.settings.naming model.structName job.collected.report.tables =
      some model.tableName := by
  obtain ⟨⟨name, _⟩, hentry, rfl⟩ := List.mem_map.mp h
  have hkept := keepsLast_collected job name
  rw [Keyed.get?_eq_some_of_mem job.collects.nodup hentry] at hkept
  rw [← (job.collects.entry _ hentry).1]
  exact hkept.symm

/-- A table has a model exactly if it is the last one of its name. -/
theorem exists_model_iff :
    (∃ model ∈ job.models, model.tableName = table) ↔
      lastNamed job.settings.naming (job.settings.naming.structName table)
        job.collected.report.tables = some table := by
  constructor
  · rintro ⟨model, hmodel, rfl⟩
    have hlast := lastNamed_tableName hmodel
    rw [structName_of_lastNamed hlast]
    exact hlast
  · intro h
    have hkept := keepsLast_collected job (job.settings.naming.structName table)
    rw [h] at hkept
    obtain ⟨model, hmodel, hname⟩ := Option.map_eq_some_iff.mp hkept
    exact ⟨model, List.mem_map.mpr ⟨_, Keyed.mem_of_get?_eq_some hmodel, rfl⟩, hname⟩

theorem structName_eq
    (h : model ∈ job.models) :
    model.structName = job.settings.naming.structName model.tableName :=
  (structName_of_lastNamed (lastNamed_tableName h)).symm

/-- No two models belong to one table. -/
theorem nodup_tableNames
    (job : GenerationJob) :
    (job.models.map (·.tableName)).Nodup := by
  refine List.Nodup.of_map job.settings.naming.structName ?_
  have hnames : (job.models.map (·.tableName)).map job.settings.naming.structName =
      job.models.map (·.structName) := by
    rw [List.map_map]
    exact List.map_congr_left fun model hmodel => (structName_eq hmodel).symm
  rw [hnames]
  exact job.nodup_structNames

end Models

/-! ## Files of tables -/

section Files

variable {job : GenerationJob}
variable {model : GoStruct}
variable {tree after : FileTree}
variable {directory : Path}
variable {report : GenerationReport}
variable {table : String}

/-- The structs and paths of the files of a table are those of its models. -/
theorem filesOf_of_target
    (hfiles : report.files.map EmittedFile.target =
      job.models.flatMap fun model => ModelFile.all.map (ModelFile.target directory model))
    (table : String) :
    (report.filesOf table).map (fun file => (file.structName, file.path)) =
      job.models.flatMap fun model =>
        if model.tableName = table then GenerationJob.pathsOf directory model.structName else [] := by
  have htargets : (report.filesOf table).map (fun file => (file.structName, file.path)) =
      ((report.files.map EmittedFile.target).filter fun target => target.1 = table).map
        fun target => (target.2.2.1, target.2.2.2) := by
    rw [List.filter_map, List.map_map]
    rfl
  rw [htargets, hfiles, List.filter_flatMap, List.map_flatMap]
  refine List.flatMap_congr fun model hmodel => ?_
  have hname : model.fileName = Text.lowerFirst model.structName :=
    (GenerationJob.draws hmodel).fileName
  by_cases htable : model.tableName = table
  · simp [ModelFile.all, ModelFile.target, ModelFile.pathIn, ModelFile.nameFor, htable, hname,
      GenerationJob.pathsOf]
  · simp [ModelFile.all, ModelFile.target, htable]

/-- A run that succeeds reports the files of the tables that its models belong to. -/
theorem Ends.filesOf
    (h : Ends job tree (.ok report) after) :
    report.tables = job.collected.report.tables ∧
      (job.models ≠ [] →
        ∃ directory, job.settings.outputDirectory tree.workingDirectory = .ok directory ∧
          ∀ table, (report.filesOf table).map (fun file => (file.structName, file.path)) =
            job.models.flatMap fun model =>
              if model.tableName = table then
                GenerationJob.pathsOf directory model.structName
              else
                []) := by
  cases h with
  | nothing hmodels => exact ⟨rfl, fun hne => absurd (by simp [GenerationJob.models, hmodels]) hne⟩
  | emitted hbegun hemission _ | wired hbegun hemission _ _ | unwired hbegun hemission _ _ =>
      obtain ⟨state, hreach, hret, -⟩ := hemission
      exact ⟨rfl, fun _ => ⟨_, hbegun.named, filesOf_of_target (hreach.map_target hret)⟩⟩

/-- A table that is the last one of its name has its files. -/
theorem Ends.covers
    (h : Ends job tree (.ok report) after)
    (hlast : lastNamed job.settings.naming (job.settings.naming.structName table)
      report.tables = some table) :
    job.Covers tree report table := by
  obtain ⟨htables, hfiles⟩ := h.filesOf
  rw [htables] at hlast
  obtain ⟨model, hmodel, rfl⟩ := exists_model_iff.mpr hlast
  obtain ⟨directory, hdirectory, hfilesOf⟩ := hfiles (List.ne_nil_of_mem hmodel)
  refine ⟨directory, hdirectory, ?_⟩
  rw [hfilesOf, ← structName_eq hmodel]
  -- the other models belong to other tables
  have hnodup := nodup_tableNames job
  obtain ⟨front, back, hsplit⟩ := List.append_of_mem hmodel
  rw [hsplit, List.map_append, List.map_cons] at hnodup
  have hothers : ∀ other ∈ front ++ back, other.tableName ≠ model.tableName := by
    intro other hother heq
    have hmem : model.tableName ∈ front.map (·.tableName) ++ back.map (·.tableName) := by
      rw [← List.map_append]
      exact List.mem_map.mpr ⟨other, hother, heq⟩
    exact (List.nodup_middle.mp hnodup).notMem hmem
  have hnone : ∀ others : List GoStruct, (∀ other ∈ others, other ∈ front ++ back) →
      (others.flatMap fun other =>
        if other.tableName = model.tableName then
          GenerationJob.pathsOf directory other.structName
        else
          []) = [] := by
    intro others hsub
    rw [List.flatMap_eq_nil_iff]
    exact fun other hother => if_neg (hothers other (hsub other hother))
  rw [hsplit, List.flatMap_append, List.flatMap_cons,
    hnone front fun _ hother => List.mem_append_left _ hother,
    hnone back fun _ hother => List.mem_append_right _ hother]
  simp

/-- A table with a later one of its name has no files. -/
theorem Ends.filesOf_eq_nil
    (h : Ends job tree (.ok report) after)
    (hlast : lastNamed job.settings.naming (job.settings.naming.structName table)
      report.tables ≠ some table) :
    report.filesOf table = [] := by
  obtain ⟨htables, hfiles⟩ := h.filesOf
  rw [htables] at hlast
  have hother : ∀ model ∈ job.models, model.tableName ≠ table := fun model hmodel heq =>
    hlast (exists_model_iff.mp ⟨model, hmodel, heq⟩)
  by_cases hmodels : job.models = []
  · obtain ⟨heq, -⟩ := h.eq_of_nothing (by simpa [GenerationJob.models] using hmodels)
    cases heq
    simp [GenerationReport.filesOf, job.collects.files]
  · obtain ⟨directory, -, hfilesOf⟩ := hfiles hmodels
    rw [← List.map_eq_nil_iff, hfilesOf, List.flatMap_eq_nil_iff]
    exact fun model hmodel => if_neg (hother model hmodel)

/-- Names in a list are different exactly if no later one is the same. -/
theorem nodup_map_iff
    {A B : Type}
    (f : A → B)
    (list : List A) :
    (list.map f).Nodup ↔ ∀ front a back, list = front ++ a :: back → f a ∉ back.map f := by
  constructor
  · rintro h front a back rfl
    rw [List.map_append, List.map_cons] at h
    exact (List.nodup_cons.mp (List.nodup_append.mp h).2.1).1
  · intro h
    induction list with
    | nil => exact List.nodup_nil
    | cons a rest ih =>
        refine List.nodup_cons.mpr ⟨h [] a rest rfl, ih fun front b back heq => ?_⟩
        exact h (a :: front) b back (by rw [heq, List.cons_append])

/-- A run that succeeds reports two files for every table that no later table shares its struct
name with, and none for the others; so no table that it lists is left out exactly if their
structs have different names. -/
theorem Reaches.covers_iff
    (htables : job.tables.Nodup)
    (h : Reaches job tree (.ended (.ok report) after)) :
    (∀ front table back, report.tables = front ++ table :: back →
      (job.Covers tree report table ∨ report.filesOf table = []) ∧
      (report.filesOf table = [] ↔
        job.settings.naming.structName table ∈ back.map job.settings.naming.structName)) ∧
    ((∀ table ∈ report.tables, job.Covers tree report table) ↔
      (report.tables.map job.settings.naming.structName).Nodup) := by
  have hends : Ends job tree (.ok report) after := reaches_ended_iff.mp h
  have hnodup : report.tables.Nodup := by
    rw [hends.filesOf.1]
    exact nodup_tables htables
  have hsplit : ∀ front table back, report.tables = front ++ table :: back →
      (job.Covers tree report table ∨ report.filesOf table = []) ∧
      (report.filesOf table = [] ↔
        job.settings.naming.structName table ∈ back.map job.settings.naming.structName) := by
    intro front table back heq
    by_cases hname : job.settings.naming.structName table ∈
        back.map job.settings.naming.structName
    · have hnone : report.filesOf table = [] := by
        refine hends.filesOf_eq_nil fun hlast => ?_
        obtain ⟨other, hother, hfound⟩ := exists_lastNamed_of_mem front hname
        rw [heq, hfound, Option.some.injEq] at hlast
        rw [heq] at hnodup
        exact (List.nodup_cons.mp (List.nodup_append.mp hnodup).2.1).1 (hlast ▸ hother)
      exact ⟨Or.inr hnone, iff_of_true hnone hname⟩
    · have hcovers : job.Covers tree report table :=
        hends.covers (by rw [heq]; exact lastNamed_of_notMem hname)
      exact ⟨Or.inl hcovers, iff_of_false hcovers.filesOf_ne_nil hname⟩
  refine ⟨hsplit, ?_⟩
  rw [nodup_map_iff]
  constructor
  · intro hcovers front table back heq hname
    exact (hcovers table (by simp [heq])).filesOf_ne_nil ((hsplit front table back heq).2.mpr hname)
  · intro hnames table htable
    obtain ⟨front, back, heq⟩ := List.append_of_mem htable
    obtain ⟨hcovers | hnone, hiff⟩ := hsplit front table back heq
    · exact hcovers
    · exact absurd (hiff.mp hnone) (hnames front table back heq)

end Files

/-! ## Two tables -/

/-- Two tables with a primary key only, and no wiring. -/
def pairJob (first second : String) : GenerationJob where
  settings := { out := ⟨"db/db"⟩, library := .directory ⟨"tpl"⟩, wire := false }
  source := keySource
  tables := [first, second]
  workers := 2

theorem exists_reaches_of_execute
    {A : Type}
    {a : A}
    (read : GenerationReport → A)
    (job : GenerationJob)
    (tree : FileTree)
    (h : (execute job.settings job.formatter job.collected tree).1.toOption.map read = some a) :
    ∃ report after, Reaches job tree (.ended (.ok report) after) ∧ read report = a := by
  obtain ⟨report, hok, heq⟩ := Option.map_eq_some_iff.mp h
  have hreach := reaches_execute job tree
  rw [FileTree.eq_ok_of_toOption hok] at hreach
  exact ⟨report, _, hreach, heq⟩

/-- Tables whose structs have different names have their files. -/
theorem orders_users_covered :
    ∃ report after,
      (pairJob "orders" "users").tables.Nodup ∧
        Reaches (pairJob "orders" "users") usersTree (.ended (.ok report) after) ∧
        report.tables = ["orders", "users"] ∧
        ∀ table ∈ report.tables, (pairJob "orders" "users").Covers usersTree report table := by
  obtain ⟨report, after, hreach, htables⟩ :
      ∃ report after,
        Reaches (pairJob "orders" "users") usersTree (.ended (.ok report) after) ∧
          report.tables = ["orders", "users"] :=
    exists_reaches_of_execute GenerationReport.tables _ usersTree (by decide +kernel)
  have hnodup : (pairJob "orders" "users").tables.Nodup := by decide
  refine ⟨report, after, hnodup, hreach, htables, (hreach.covers_iff hnodup).2.mpr ?_⟩
  rw [htables]
  decide +kernel

/-- A table whose struct has the name of a later one is listed, but none of its files are. -/
theorem user_users_not_covered :
    ¬ ∀ (job : GenerationJob) (tree after : FileTree) (report : GenerationReport),
      job.tables.Nodup →
      Reaches job tree (.ended (.ok report) after) →
      ∀ table ∈ report.tables, job.Covers tree report table := by
  intro hall
  obtain ⟨report, after, hreach, hread⟩ :
      ∃ report after,
        Reaches (pairJob "user" "users") usersTree (.ended (.ok report) after) ∧
          (report.tables, report.filesOf "user") = (["user", "users"], []) :=
    exists_reaches_of_execute (fun report => (report.tables, report.filesOf "user")) _ usersTree
      (by decide +kernel)
  obtain ⟨htables, hnone⟩ := Prod.mk.inj hread
  have hcovers := hall _ _ _ report (by decide) hreach "user" (by simp [htables])
  exact hcovers.filesOf_ne_nil hnone

end Generation
end GormForge
