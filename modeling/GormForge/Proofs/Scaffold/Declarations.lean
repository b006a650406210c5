import GormForge.Proofs.Emission.Declarations
import GormForge.Proofs.Scaffold.Create

/-!
# What the files of scaffolds declare

**Input.**  A kind of scaffold with a constructor, a name argument whose context is let through,
the built-in templates and a formatter that leaves every source as it is.

**Algorithm.**  As for models: the template is walked through with the places of its holes.  All
that is put in are words, except for the path of the project in a controller.

**Results.**
* `ScaffoldName.isWord_of_parse?`: what is put in for a name are words.
* `Scaffolder.exists_ctor`: the file declares the constructor that goes into the provider files.
-/

namespace GormForge

open Template

/-! ## Names -/

/-- What an argument gives besides an exported name are words, too. -/
theorem ScaffoldName.isWord_of_parse?
    {argument : String}
    {name : ScaffoldName}
    (h : ScaffoldName.parse? argument = some name)
    (hname : Go.isExportedWord name.name = true) :
    Go.isWord name.lowerName = true ∧ Go.isWord name.firstChar = true := by
  have hlower := (Go.isIdentifier_lowerFirst hname).isWord
  unfold parse? at h
  simp only at h
  split at h
  · cases h
  · next first rest hfirst =>
      cases h
      rw [Text.lowerFirst, String.toList_ofList, hfirst] at hlower
      refine ⟨hlower, Go.isWord_iff.mpr ⟨by simp, ?_⟩⟩
      have hchars := (Go.isWord_iff.mp hlower).2
      rw [String.toList_ofList] at hchars
      simpa using (List.forall_mem_cons.mp hchars).1

/-! ## Templates -/

namespace ScaffoldContext

variable {context : ScaffoldContext}

/-- The texts of a scaffold that are put into code are words. -/
structure Worded (context : ScaffoldContext) : Prop where
  package : Go.isWord context.package = true
  name : Go.isExportedWord context.name = true
  lowerName : Go.isWord context.lowerName = true
  firstChar : Go.isWord context.firstChar = true

/-- Where the holes of the templates of scaffolds may stand. -/
def uses : Uses :=
  [("package".toList, .code), ("name".toList, .code), ("lower_name".toList, .code),
    ("lower_name".toList, .string), ("first_char".toList, .code)]

theorem suits_uses
    (h : context.Worded) :
    Suits context.scope uses := by
  unfold uses
  exact suits_cons rfl (Go.keeps_of_isWord h.package (by decide)) <|
    suits_cons rfl (Go.keeps_of_isWord (Go.isWord_of_isExportedWord h.name) (by decide)) <|
    suits_cons rfl (Go.keeps_of_isWord h.lowerName (by decide)) <|
    suits_cons rfl (Go.keeps_of_isWord h.lowerName (by decide)) <|
    suits_cons rfl (Go.keeps_of_isWord h.firstChar (by decide)) suits_nil

/-- The declaration of the constructor of a controller. -/
def controllerHead (context : ScaffoldContext) : String :=
  Go.functionHead ("New" ++ context.name ++ "Controller")
    ("controller *Controller, " ++ context.lowerName ++ "Service service." ++ context.name ++
      "Service")
    ("*" ++ context.name ++ "Controller")

/-- The declaration of the constructor of a service. -/
def serviceHead (context : ScaffoldContext) : String :=
  Go.functionHead ("New" ++ context.name ++ "Service") "service *Service"
    (context.name ++ "Service")

/-- The declaration of the constructor of a cache. -/
def cacheHead (context : ScaffoldContext) : String :=
  Go.functionHead ("New" ++ context.name ++ "Cache") "rdb *redis.Client" (context.name ++ "Cache")

set_option maxRecDepth 4000 in
theorem renders_controller
    (h : context.Worded)
    (hproject : Go.Keeps .string context.project) :
    Renders context.scope Template.controller .top .top [context.controllerHead.toList] := by
  have hsuits : Suits context.scope (("project".toList, .string) :: uses) :=
    suits_cons rfl hproject (suits_uses h)
  unfold Template.controller
  refine renders_code hsuits ?_ ?_
  · simp only [List.map_cons, List.map_nil]
    repeat rw [String.toList_ofList]
    decide +kernel
  · simp only [List.map_cons, List.map_nil, List.forall_mem_cons]
    refine ⟨⟨13, begins_of_line rfl ?_ ?_⟩, List.forall_mem_nil _⟩
    · repeat rw [String.toList_ofList]
      decide +kernel
    · simp only [controllerHead, Go.functionHead, String.toList_append, List.append_assoc]
      repeat rw [String.toList_ofList]
      rfl

theorem renders_service
    (h : context.Worded) :
    Renders context.scope Template.service .top .top [context.serviceHead.toList] := by
  unfold Template.service
  refine renders_code (suits_uses h) ?_ ?_
  · simp only [List.map_cons, List.map_nil]
    repeat rw [String.toList_ofList]
    decide +kernel
  · simp only [List.map_cons, List.map_nil, List.forall_mem_cons]
    refine ⟨⟨14, begins_of_line rfl ?_ ?_⟩, List.forall_mem_nil _⟩
    · repeat rw [String.toList_ofList]
      decide +kernel
    · simp only [serviceHead, Go.functionHead, String.toList_append, List.append_assoc]
      repeat rw [String.toList_ofList]
      rfl

theorem renders_cache
    (h : context.Worded) :
    Renders context.scope Template.cache .top .top [context.cacheHead.toList] := by
  unfold Template.cache
  refine renders_code (suits_uses h) ?_ ?_
  · simp only [List.map_cons, List.map_nil]
    repeat rw [String.toList_ofList]
    decide +kernel
  · simp only [List.map_cons, List.map_nil, List.forall_mem_cons]
    refine ⟨⟨19, begins_of_line rfl ?_ ?_⟩, List.forall_mem_nil _⟩
    · repeat rw [String.toList_ofList]
      decide +kernel
    · simp only [cacheHead, Go.functionHead, String.toList_append, List.append_assoc]
      repeat rw [String.toList_ofList]
      rfl

end ScaffoldContext

/-! ## Files -/

namespace Scaffolder

variable {scaffolder : Scaffolder}
variable {kind : ScaffoldKind}
variable {name : ScaffoldName}
variable {argument marker ending text : String}
variable {tree after : FileTree}
variable {outcome : ScaffoldOutcome}

theorem worded_contextOf
    (hparse : ScaffoldName.parse? argument = some name)
    (hvalid : (scaffolder.contextOf kind name).validate = .ok ()) :
    (scaffolder.contextOf kind name).Worded := by
  unfold ScaffoldContext.validate at hvalid
  split at hvalid
  · cases hvalid
  · next hname =>
      split at hvalid
      · cases hvalid
      · next hpackage =>
          have hexported : Go.isExportedWord name.name = true := by simpa [contextOf] using hname
          obtain ⟨hlower, hfirst⟩ := ScaffoldName.isWord_of_parse? hparse hexported
          exact ⟨Go.isWord_of_isPackageName (by simpa using hpackage), hexported, hlower, hfirst⟩

/-- What a built-in template renders to is the text of the file. -/
theorem render_of_renderAll
    (tree : FileTree)
    (hlibrary : scaffolder.library = .builtin)
    (hformatter : scaffolder.formatter = .passthrough)
    (hvalid : (scaffolder.contextOf kind name).validate = .ok ())
    (hrender : renderAll (scaffolder.contextOf kind name).scope kind.template.builtin = some text) :
    scaffolder.render kind name tree = .ok text := by
  have hmissing : scaffolder.library.overrideOf? tree kind.template = .ok none := by
    rw [hlibrary]
    rfl
  simp only [render, hvalid, Library.renderWith_of_missing hmissing hrender, hformatter]
  rfl

/-- The name of a constructor with its parameters and its result, all made of words. -/
theorem declaresFunction_of_stands
    {source params result : String}
    (hname : Go.isExportedWord name.name = true)
    (hending : Go.isWord ending = true)
    (hparams : ')' ∉ params.toList)
    (hresult : '\x7b' ∉ result.toList)
    (h : Go.Stands source (Go.functionHead ("New" ++ name.name ++ ending) params result)) :
    Go.DeclaresFunction source ("New" ++ name.name ++ ending) result := by
  have hnew : Go.IsIdentifier "New" := Go.isIdentifier_iff.mpr (by decide +kernel)
  have hword := Go.isWord_of_isExportedWord hname
  exact ⟨(hnew.append hword).append hending, hresult, params, hparams, h⟩

/-- The file of a scaffold declares the constructor that goes into the provider files. -/
theorem exists_ctor
    (hlibrary : scaffolder.library = .builtin)
    (hformatter : scaffolder.formatter = .passthrough)
    (hparse : ScaffoldName.parse? argument = some name)
    (hvalid : (scaffolder.contextOf kind name).validate = .ok ())
    (hproject : kind = .controller → Go.Keeps .string scaffolder.project)
    (hprovider : kind.provider? = some (marker, ending)) :
    ∃ text result, (∀ tree, scaffolder.render kind name tree = .ok text) ∧
      Go.DeclaresFunction text ("New" ++ name.name ++ ending) result := by
  have hworded := worded_contextOf hparse hvalid
  have hname : Go.isExportedWord name.name = true := hworded.name
  have hword := Go.isWord_of_isExportedWord hname
  have hclose := Go.notMem_of_isWord hword (by decide : Go.isWordChar ')' = false)
  have hopen := Go.notMem_of_isWord hword (by decide : Go.isWordChar '\x7b' = false)
  cases kind with
  | controller =>
      obtain ⟨text, htext, -, hread, hparts⟩ :=
        ScaffoldContext.renders_controller hworded (hproject rfl)
      have hlower := Go.notMem_of_isWord hworded.lowerName (by decide : Go.isWordChar ')' = false)
      cases hprovider
      refine ⟨text, _, fun tree => render_of_renderAll tree hlibrary hformatter hvalid htext,
        declaresFunction_of_stands hname (by decide +kernel) ?_ ?_
          ⟨hread, hparts _ (List.mem_cons_self ..)⟩⟩
      · simpa [contextOf] using ⟨hlower, hclose⟩
      · simpa [contextOf] using hopen
  | service =>
      obtain ⟨text, htext, -, hread, hparts⟩ := ScaffoldContext.renders_service hworded
      cases hprovider
      exact ⟨text, _, fun tree => render_of_renderAll tree hlibrary hformatter hvalid htext,
        declaresFunction_of_stands hname (by decide +kernel) (by decide +kernel)
          (by simpa [contextOf] using hopen) ⟨hread, hparts _ (List.mem_cons_self ..)⟩⟩
  | router => cases hprovider
  | cache =>
      obtain ⟨text, htext, -, hread, hparts⟩ := ScaffoldContext.renders_cache hworded
      cases hprovider
      exact ⟨text, _, fun tree => render_of_renderAll tree hlibrary hformatter hvalid htext,
        declaresFunction_of_stands hname (by decide +kernel) (by decide +kernel)
          (by simpa [contextOf] using hopen) ⟨hread, hparts _ (List.mem_cons_self ..)⟩⟩

/-- A scaffold that is created has its text stored first, and then nothing but its constructor is
entered into the files next to it. -/
theorem exists_stored
    (hmissing : tree.pathExists (scaffolder.pathOf kind name) = false)
    (hrender : scaffolder.render kind name tree = .ok text)
    (hprovider : kind.provider? = some (marker, ending))
    (hcreate : scaffolder.create kind name tree = (.ok outcome, after)) :
    ∃ stored, stored.readText (scaffolder.pathOf kind name) = .ok text ∧
      (after = stored ∨ ∃ patches,
        Providers.patch (scaffolder.pathOf kind name)
          [.provider marker ("New" ++ name.name ++ ending)] stored = (patches, after)) := by
  rcases create_of_missing hmissing hrender with
    ⟨e, stored, -, hfailed⟩ | ⟨stored, other, final, hstore, hcreated, -, hwires⟩
  · rw [hfailed] at hcreate
    cases hcreate
  · rw [hcreated] at hcreate
    cases hcreate
    refine ⟨stored, (GeneratedFile.inPlace_store hstore).1, ?_⟩
    rcases hwires with rfl | ⟨entry, patches, -, hentry, hpatch⟩
    · exact Or.inl rfl
    · simp only [entryOf?, hprovider, Option.map_some, Option.some.injEq] at hentry
      subst hentry
      exact Or.inr ⟨patches, hpatch⟩

end Scaffolder
end GormForge
