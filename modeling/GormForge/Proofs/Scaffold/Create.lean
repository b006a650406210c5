import GormForge.Proofs.Naming.Structs
import GormForge.Proofs.Template.Builtin
import GormForge.Proofs.Wiring.Entry
import GormForge.Scaffold.Create

/-!
# One scaffold

What creating one scaffold does to a tree.

**Input.**  A name that makes a Go identifier, the built-in templates and a formatter that takes
every source.

**Algorithm.**  A file that exists is left alone.  Otherwise it is stored, and the entry of its
constructor goes into the files next to it.

**Results.**
* `exists_render`: every kind of scaffold renders, and to the same text in every tree.
* `isName_fileName`: the name of the file stands for a node in a directory.
* `create_of_pathExists`, `create_of_missing`: the two ways in which creating can go.
* `Wires.holdsText`: wiring leaves the file of a scaffold its text, up to its own entry.
-/

namespace GormForge

/-! ## Rendering -/

namespace Template

/-- The names that the templates of scaffolds use. -/
def scaffoldNames : List (List Char) :=
  ["package", "project", "name", "lower_name", "first_char"].map String.toList

theorem fills_scaffoldNames
    (context : ScaffoldContext) :
    ∀ name ∈ scaffoldNames, Fills context.scope name := by
  simp only [scaffoldNames, List.map_cons, List.map_nil, List.forall_mem_cons]
  exact ⟨rfl, rfl, rfl, rfl, rfl, by simp⟩

set_option maxRecDepth 4000 in
/-- The templates of scaffolds render for every name. -/
theorem renderAll_scaffold
    (context : ScaffoldContext)
    (kind : ScaffoldKind) :
    (renderAll context.scope kind.template.builtin).isSome = true := by
  have hknown := fills_scaffoldNames context
  cases kind <;> simp only [ScaffoldKind.template, Kind.builtin]
  case controller =>
    exact renderAll_code hknown (by repeat (first | exact lines_nil | refine lines_cons rfl ?_))
  case service =>
    exact renderAll_code hknown (by repeat (first | exact lines_nil | refine lines_cons rfl ?_))
  case router =>
    exact renderAll_code hknown (by repeat (first | exact lines_nil | refine lines_cons rfl ?_))
  case cache =>
    exact renderAll_code hknown (by repeat (first | exact lines_nil | refine lines_cons rfl ?_))

end Template

/-- A formatter that takes every source. -/
def Formatter.Accepts (formatter : Formatter) : Prop :=
  ∀ path source, ∃ text, formatter.format path source = .ok text

theorem Formatter.accepts_passthrough :
    Formatter.passthrough.Accepts :=
  fun _ source => ⟨source, rfl⟩

namespace Scaffolder

open FileTree

variable {scaffolder : Scaffolder}
variable {kind : ScaffoldKind}
variable {name : ScaffoldName}
variable {tree : FileTree}
variable {text : String}

/-- A scaffold renders, and to the same text in every tree. -/
theorem exists_render
    (hlibrary : scaffolder.library = .builtin)
    (hformatter : scaffolder.formatter.Accepts)
    (hvalid : (scaffolder.contextOf kind name).validate = .ok ()) :
    ∃ text, ∀ tree, scaffolder.render kind name tree = .ok text := by
  obtain ⟨source, hsource⟩ := Option.isSome_iff_exists.mp
    (Template.renderAll_scaffold (scaffolder.contextOf kind name) kind)
  obtain ⟨text, htext⟩ := hformatter (scaffolder.pathOf kind name) source
  refine ⟨text, fun tree => ?_⟩
  have hmissing : scaffolder.library.overrideOf? tree kind.template = .ok none := by
    rw [hlibrary]
    rfl
  simp only [render, hvalid, Template.Library.renderWith_of_missing hmissing hsource,
    Formatter.formatSource, htext]

end Scaffolder

/-! ## Names -/

theorem Text.notMem_lower
    {x : Char}
    {s : String}
    (hx : IsMark x)
    (h : x ∉ s.toList) :
    x ∉ (lower s).toList := by
  have hafter : ∀ cs before, x ∉ cs → x ∉ lowerAfter before cs := by
    intro cs
    induction cs with
    | nil => simp [lowerAfter]
    | cons c cs ih =>
        intro before hcs
        rw [List.mem_cons, not_or] at hcs
        unfold lowerAfter
        split
        · refine List.mem_cons.not.mpr (not_or.mpr ⟨hx.ne_ofNat ?_, ih _ hcs.2⟩)
          left
          split <;> decide
        · exact List.mem_append.not.mpr (not_or.mpr ⟨notMem_lowerChar hx hcs.1, ih _ hcs.2⟩)
  unfold lower
  rw [String.toList_ofList]
  exact hafter s.toList [] h

/-- The name of a scaffold's file stands for a node in a directory. -/
theorem ScaffoldName.isName_fileName
    {name : ScaffoldName}
    (h : Go.isWord name.name = true) :
    Path.IsName name.fileName := by
  have hfile : name.fileName.toList = (Text.lower name.name).toList ++ ['.', 'g', 'o'] := by
    simp [fileName]
  have hslash : '/' ∉ (Text.lower name.name).toList :=
    Text.notMem_lower Text.isMark_slash (Go.notMem_of_isWord h (by decide))
  constructor
  · rw [hfile]
    simp [hslash]
  · rw [hfile]
    simp [Path.isIdle, List.append_eq_singleton_iff]
  · rw [hfile]
    intro hup
    have hlast := congrArg List.getLast? hup
    simp at hlast

/-! ## Creating -/

namespace Scaffolder

open FileTree

variable {scaffolder : Scaffolder}
variable {kind : ScaffoldKind}
variable {name : ScaffoldName}
variable {tree after : FileTree}
variable {outcome : ScaffoldOutcome}
variable {text : String}

/-- The entry of a scaffold's constructor. -/
def entryOf? (kind : ScaffoldKind) (name : ScaffoldName) : Option Insertion :=
  kind.provider?.map fun provider => .provider provider.1 ("New" ++ name.name ++ provider.2)

theorem keyLines_entry
    {entry : Insertion}
    (hname : Go.isWord name.name = true)
    (h : entryOf? kind name = some entry) :
    entry.keyLines ≠ [] := by
  obtain ⟨provider, hprovider, rfl⟩ := Option.map_eq_some_iff.mp h
  have hfeed := Go.notMem_of_isWord hname (by decide : Go.isWordChar '\n' = false)
  have hending : '\n' ∉ provider.2.toList := by
    cases kind <;> cases hprovider <;> decide
  exact Insertion.keyLines_provider _ (by simp [hfeed, hending])

/-- A file that exists is left alone. -/
theorem create_of_pathExists
    (h : tree.pathExists (scaffolder.pathOf kind name) = true) :
    scaffolder.create kind name tree =
      (.ok { kind := kind, path := scaffolder.pathOf kind name }, tree) := by
  have hprepare : GeneratedFile.prepare (scaffolder.pathOf kind name) FileRules.createOnce
      (scaffolder.render kind name) tree = .ok none :=
    GeneratedFile.prepare_eq_ok_none_iff.mpr ⟨rfl, h⟩
  have hput : GeneratedFile.put GenerateError.write (scaffolder.pathOf kind name)
      FileRules.createOnce (scaffolder.render kind name) tree = (.ok .skipped, tree) := by
    unfold GeneratedFile.put
    rw [bind_ok (by rw [viewE, hprepare])]
    rfl
  unfold create
  rw [bind_ok hput]
  rfl

/-- What became of a scaffold that was written. -/
structure IsWritten (scaffolder : Scaffolder) (kind : ScaffoldKind) (name : ScaffoldName)
    (outcome : ScaffoldOutcome) : Prop where
  kind_eq : outcome.kind = kind
  path_eq : outcome.path = scaffolder.pathOf kind name
  written : outcome.result = .written

theorem isWritten_outcome
    (scaffolder : Scaffolder)
    (kind : ScaffoldKind)
    (name : ScaffoldName)
    (wiring : List PatchOutcome)
    (warnings : List String) :
    scaffolder.IsWritten kind name
      { kind := kind, path := scaffolder.pathOf kind name, result := .written, wiring := wiring,
        warnings := warnings } := by
  constructor <;> rfl

/-- Wiring that fails is no failure: it adds nothing to the outcome but a warning. -/
theorem wireOutcome_eq
    {marker ctor : String}
    (outcome : ScaffoldOutcome)
    {result : Except WireError (List PatchOutcome)}
    (h : Providers.patch outcome.path [.provider marker ctor] tree = (result, after)) :
    ∃ warnings, wireOutcome marker ctor outcome tree =
      (.ok { outcome with
        wiring := result.toOption.getD outcome.wiring
        warnings := warnings }, after) := by
  have hattempt : (attempt (Providers.patch outcome.path [.provider marker ctor]) :
      FileAction GenerateError _) tree = (.ok result, after) := by
    rw [attempt_apply, h]
  unfold wireOutcome
  rw [bind_ok hattempt]
  cases result with
  | error e => exact ⟨_, rfl⟩
  | ok outcomes => exact ⟨_, rfl⟩

/-- What wiring makes of the tree with a new scaffold: nothing, or what patching its entry into
the files next to it does. -/
def Wires (scaffolder : Scaffolder) (kind : ScaffoldKind) (name : ScaffoldName)
    (stored after : FileTree) : Prop :=
  after = stored ∨
    ∃ entry result, scaffolder.wire = true ∧ entryOf? kind name = some entry ∧
      Providers.patch (scaffolder.pathOf kind name) [entry] stored = (result, after)

/-- A file that is missing is rendered and stored. -/
theorem put_of_missing
    (hmissing : tree.pathExists (scaffolder.pathOf kind name) = false)
    (hrender : scaffolder.render kind name tree = .ok text) :
    GeneratedFile.put GenerateError.write (scaffolder.pathOf kind name) FileRules.createOnce
        (scaffolder.render kind name) tree =
      adapt .write (GeneratedFile.store (scaffolder.pathOf kind name) (some text)) tree := by
  have hprepare : GeneratedFile.prepare (scaffolder.pathOf kind name) FileRules.createOnce
      (scaffolder.render kind name) tree = .ok (some text) :=
    GeneratedFile.prepare_eq_ok_some_iff.mpr ⟨by simp [hmissing], text, hrender, rfl⟩
  unfold GeneratedFile.put
  rw [bind_ok (by rw [viewE, hprepare])]

/-- A scaffold whose file was written is reported so, and is wired or left. -/
theorem create_of_written
    {stored : FileTree}
    (h : GeneratedFile.put GenerateError.write (scaffolder.pathOf kind name)
      FileRules.createOnce (scaffolder.render kind name) tree = (.ok .written, stored)) :
    ∃ outcome after, scaffolder.create kind name tree = (.ok outcome, after) ∧
      scaffolder.IsWritten kind name outcome ∧ scaffolder.Wires kind name stored after := by
  cases hwire : scaffolder.wire with
  | false =>
      refine ⟨_, stored, ?_, isWritten_outcome _ _ _ [] [], Or.inl rfl⟩
      unfold create
      rw [bind_ok h, hwire]
      rfl
  | true =>
      cases hprovider : kind.provider? with
      | none =>
          refine ⟨_, stored, ?_, isWritten_outcome _ _ _ [] [], Or.inl rfl⟩
          unfold create
          rw [bind_ok h, hwire, hprovider]
          rfl
      | some provider =>
          obtain ⟨marker, ending⟩ := provider
          rcases hpatch : Providers.patch (scaffolder.pathOf kind name)
            [.provider marker ("New" ++ name.name ++ ending)] stored with ⟨patches, after⟩
          obtain ⟨warnings, hout⟩ := wireOutcome_eq
            { kind := kind, path := scaffolder.pathOf kind name, result := .written } hpatch
          refine ⟨_, after, ?_, isWritten_outcome _ _ _ (patches.toOption.getD []) warnings,
            Or.inr ⟨_, patches, hwire, ?_, hpatch⟩⟩
          · unfold create
            rw [bind_ok h, hwire, hprovider]
            exact hout
          · simp [entryOf?, hprovider]

/-- A file that is missing is stored, and the entry of its constructor goes into the files next
to it, unless the file cannot be written. -/
theorem create_of_missing
    (hmissing : tree.pathExists (scaffolder.pathOf kind name) = false)
    (hrender : scaffolder.render kind name tree = .ok text) :
    (∃ e stored,
        GeneratedFile.store (scaffolder.pathOf kind name) (some text) tree = (.error e, stored) ∧
          scaffolder.create kind name tree = (.error (.write e), stored)) ∨
      ∃ stored outcome after,
        GeneratedFile.store (scaffolder.pathOf kind name) (some text) tree =
            (.ok .written, stored) ∧
          scaffolder.create kind name tree = (.ok outcome, after) ∧
          scaffolder.IsWritten kind name outcome ∧
          scaffolder.Wires kind name stored after := by
  have hput := put_of_missing hmissing hrender
  rcases hstore : GeneratedFile.store (scaffolder.pathOf kind name) (some text) tree with
    ⟨e | result, stored⟩
  · rw [adapt_eq_error_iff.mpr ⟨e, hstore, rfl⟩] at hput
    refine Or.inl ⟨e, stored, rfl, ?_⟩
    unfold create
    rw [bind_error hput]
  · obtain ⟨rfl, -⟩ := GeneratedFile.store_some_eq_ok_iff.mp hstore
    rw [adapt_eq_ok_iff.mpr hstore] at hput
    obtain ⟨outcome, after, hcreate, hwritten, hwires⟩ := create_of_written hput
    exact Or.inr ⟨stored, outcome, after, rfl, hcreate, hwritten, hwires⟩

/-- The file of a scaffold holds the text, or the text with the entry of its constructor. -/
def HoldsText (scaffolder : Scaffolder) (kind : ScaffoldKind) (name : ScaffoldName)
    (text : String) (tree : FileTree) : Prop :=
  tree.readText (scaffolder.pathOf kind name) = .ok text ∨
    ∃ entry, entryOf? kind name = some entry ∧
      Providers.EntersFile entry text (scaffolder.pathOf kind name) tree

theorem HoldsText.pathExists
    (h : scaffolder.HoldsText kind name text tree) :
    tree.pathExists (scaffolder.pathOf kind name) = true := by
  obtain ⟨content, hread⟩ : ∃ content,
      tree.readText (scaffolder.pathOf kind name) = .ok content := by
    rcases h with hread | ⟨-, -, content, hread, -⟩
    · exact ⟨text, hread⟩
    · exact ⟨content, hread⟩
  obtain ⟨location, hres, hnode⟩ := readText_eq_ok_iff.mp hread
  exact pathExists_iff.mpr ⟨location, hres, by simp [hnode]⟩

/-- Wiring leaves the file of a scaffold its text. -/
theorem Wires.holdsText
    {stored : FileTree}
    {result : WriteResult}
    (hword : Go.isWord name.name = true)
    (hstore : GeneratedFile.store (scaffolder.pathOf kind name) (some text) tree =
      (.ok result, stored))
    (h : scaffolder.Wires kind name stored after) :
    scaffolder.HoldsText kind name text after := by
  have hread : stored.readText (scaffolder.pathOf kind name) = .ok text :=
    (GeneratedFile.inPlace_store hstore).1
  rcases h with rfl | ⟨entry, _, -, hentry, hpatch⟩
  · exact Or.inl hread
  · exact Or.inr ⟨entry, hentry,
      Providers.entersFile_patch (keyLines_entry hword hentry) hread hpatch⟩

/-- The file of a scaffold keeps its content when other files are written. -/
theorem HoldsText.grows
    {writes : Location → Prop}
    (h : scaffolder.HoldsText kind name text tree)
    (hgrows : Grows writes tree after)
    (hkeep : ∀ location, tree.resolve (scaffolder.pathOf kind name) = .ok location →
      ¬ writes location) :
    scaffolder.HoldsText kind name text after := by
  rcases h with hread | ⟨entry, hentry, content, hread, henters⟩
  · exact Or.inl (hgrows.readText hkeep hread)
  · exact Or.inr ⟨entry, hentry, content, hgrows.readText hkeep hread, henters⟩

end Scaffolder
end GormForge
