import GormForge.Proofs.Scaffold.Declarations

/-!
# Entries and declarations

The names that go into provider files are spelled apart from the templates.  Here both are
compared: what an entry names is declared by the file that the entry is for.

**Input.**  A model whose context is let through, or a scaffold with a constructor; the built-in
templates, and a formatter that leaves every source as it is.

**Results.**
* `Insertion.repository_eq`: the constructor that the entry of a model names.
* `constructors_declared`: the files belong to the package of the entry and declare its
  constructor if the texts that are put into them keep their places; they do not if the fields
  cannot be read to their end.
* `mark_undeclared`: the default of a column can make a model of the second kind.
-/

namespace GormForge

open Template

/-- The entry of a model names its constructor in its package. -/
theorem Insertion.repository_eq
    (package structName : String) :
    Insertion.repository package structName =
      .provider Insertion.repositoryMarker (package ++ "." ++ ("New" ++ structName ++ "Db")) := by
  unfold Insertion.repository
  congr 1
  rw [← String.toList_inj]
  simp

/-! ## Fields that break their file -/

/-- The lines of the fields cannot be read to their end in the struct. -/
def RenderContext.FieldsBreak (context : RenderContext) : Prop :=
  ∃ fields, renderAll context.scope RenderContext.fieldsLoop = some fields ∧
    (Go.Reader.read ⟨.code, ['\x7d']⟩ fields.toList).mode = .broken

/-- Nothing stands at the top level of a file with such fields. -/
theorem RenderContext.FieldsBreak.not_stands
    {model : GoStruct}
    {project text part : String}
    (h : (ofModel model project).FieldsBreak)
    (hsuits : Suits (ofModel model project).scope queriesUses)
    (hrender : renderAll (ofModel model project).scope repositoryQueries = some text) :
    ¬ Go.Stands (generatedHeader ++ "\n" ++ text) part := by
  obtain ⟨fields, hfields, hbroken⟩ := h
  obtain ⟨front, back, hparts, hfront, hback⟩ := exists_aroundFields hsuits
  obtain ⟨before, hbefore, -, hread, -⟩ := hfront
  obtain ⟨rest, hrest, -⟩ := hback
  rw [hparts, renderAll_append_eq (renderAll_append_eq hbefore hfields) hrest,
    Option.some.injEq] at hrender
  have hheader : Go.Reader.top.read (generatedHeader ++ "\n").toList = .top := by decide +kernel
  rintro ⟨hwhole, -⟩
  rw [← hrender] at hwhole
  simp only [String.toList_append, Go.Reader.read_append] at hwhole hheader
  rw [hheader, hread, Go.Reader.read_of_broken _ hbroken] at hwhole
  rw [hwhole] at hbroken
  cases hbroken

/-! ## Constructors -/

/-- Entries name what the files declare.

For a model these are its two files, which belong to the package in the entry.  With texts that
keep their places the one declares the constructor, and the interface that the other embeds; with
fields that break it it declares nothing.  For a scaffold it is its file, which is stored before
the entry is made; only the path of the project is free text there. -/
theorem constructors_declared
    (emitter : Emitter)
    (scaffolder : Scaffolder)
    (hemitter : emitter.library = .builtin ∧ emitter.formatter = .passthrough)
    (hscaffolder : scaffolder.library = .builtin ∧ scaffolder.formatter = .passthrough) :
    (∀ model : GoStruct, (RenderContext.ofModel model emitter.project).validate = .ok () →
      ∃ queries custom,
        (∀ directory tree, emitter.Yields directory model .queries tree queries) ∧
        (∀ directory tree, tree.pathExists (ModelFile.custom.pathIn directory model) = false →
          emitter.Yields directory model .custom tree custom) ∧
        Go.packageOf? queries = some model.packageName ∧
        Go.packageOf? custom = some model.packageName ∧
        Insertion.repository model.packageName model.structName =
          .provider Insertion.repositoryMarker
            (model.packageName ++ "." ++ ("New" ++ model.structName ++ "Db")) ∧
        (model.Fits →
          Go.DeclaresFunction queries ("New" ++ model.structName ++ "Db")
            (model.structName ++ "Repo") ∧
          Go.DeclaresInterface queries (model.interfaceName ++ "Gen") ∧
          Go.DeclaresEmbedding custom (model.structName ++ "Repo")
            (model.interfaceName ++ "Gen")) ∧
        (model.FitsAround → (RenderContext.ofModel model emitter.project).FieldsBreak →
          ¬ Go.DeclaresFunction queries ("New" ++ model.structName ++ "Db")
            (model.structName ++ "Repo"))) ∧
    (∀ (kind : ScaffoldKind) (argument : String) (name : ScaffoldName) (marker ending : String),
      ScaffoldName.parse? argument = some name →
      (scaffolder.contextOf kind name).validate = .ok () →
      kind.provider? = some (marker, ending) →
      ∃ text,
        (∀ tree, scaffolder.render kind name tree = .ok text) ∧
        (∀ tree outcome after, tree.pathExists (scaffolder.pathOf kind name) = false →
          scaffolder.create kind name tree = (.ok outcome, after) →
          ∃ stored, stored.readText (scaffolder.pathOf kind name) = .ok text ∧
            (after = stored ∨ ∃ patches,
              Providers.patch (scaffolder.pathOf kind name)
                [.provider marker ("New" ++ name.name ++ ending)] stored = (patches, after))) ∧
        ((kind = .controller → Go.Keeps .string scaffolder.project) →
          ∃ result, Go.DeclaresFunction text ("New" ++ name.name ++ ending) result)) := by
  constructor
  · intro model hvalid
    obtain ⟨text, custom, hrender, hqueries, hcustom, hpackage, hpackage', hdeclared⟩ :=
      Emitter.exists_declared hemitter.1 hemitter.2 hvalid
    refine ⟨_, custom, hqueries, hcustom, hpackage, hpackage', Insertion.repository_eq _ _,
      fun hfits => ?_, fun haround hbreak hctor => ?_⟩
    · obtain ⟨hctor, hinterface, hembedding⟩ := hdeclared hfits
      exact ⟨hctor, hinterface, hembedding⟩
    · obtain ⟨-, -, params, -, hstands⟩ := hctor
      exact hbreak.not_stands (RenderContext.suits_queriesUses hvalid haround) hrender hstands
  · intro kind argument name marker ending hparse hvalid hprovider
    have haccepts : scaffolder.formatter.Accepts := by
      rw [hscaffolder.2]
      exact Formatter.accepts_passthrough
    obtain ⟨text, htext⟩ := Scaffolder.exists_render hscaffolder.1 haccepts hvalid
    refine ⟨text, htext, fun tree outcome after hmissing hcreate =>
      Scaffolder.exists_stored hmissing (htext tree) hprovider hcreate, fun hproject => ?_⟩
    obtain ⟨other, result, hother, hdeclares⟩ :=
      Scaffolder.exists_ctor hscaffolder.1 hscaffolder.2 hparse hvalid hproject hprovider
    cases (htext {}).symm.trans (hother {})
    exact ⟨result, hdeclares⟩

/-- The model of a table of users. -/
def plainModel : GoStruct :=
  GoStruct.ofColumns "users" "User" "db" [GoStruct.intColumn "id"] {} {}

/-- The files for users and a service for them. -/
theorem users_declared :
    (∃ queries custom,
      (∀ directory tree, ({} : Emitter).Yields directory plainModel .queries tree queries) ∧
      Go.packageOf? queries = some "db" ∧
      Insertion.repository "db" "User" =
        .provider Insertion.repositoryMarker ("db" ++ "." ++ ("New" ++ "User" ++ "Db")) ∧
      Go.DeclaresFunction queries ("New" ++ "User" ++ "Db") ("User" ++ "Repo") ∧
      Go.DeclaresEmbedding custom ("User" ++ "Repo") ("user" ++ "Gen")) ∧
    ∃ text result,
      (∀ tree, ({} : Scaffolder).render .service ⟨none, "User", "user", "u"⟩ tree = .ok text) ∧
      Go.DeclaresFunction text ("New" ++ "User" ++ "Service") result := by
  have hvalid : (RenderContext.ofModel plainModel "").validate = .ok () := by
    rw [RenderContext.validate_eq_ok_iff_invalidReason?]
    decide +kernel
  have hfits : plainModel.Fits :=
    GoStruct.fits_ofColumns (by decide +kernel) (by decide +kernel) (by decide +kernel)
      (by decide +kernel) (by decide +kernel)
  obtain ⟨⟨⟩, hservice⟩ := FileTree.exists_of_isOk (by decide +kernel :
    (({} : Scaffolder).contextOf .service ⟨none, "User", "user", "u"⟩).validate.isOk = true)
  obtain ⟨hmodels, hscaffolds⟩ := constructors_declared {} {} ⟨rfl, rfl⟩ ⟨rfl, rfl⟩
  constructor
  · obtain ⟨queries, custom, hqueries, -, hpackage, -, hentry, hdeclared, -⟩ :=
      hmodels plainModel hvalid
    obtain ⟨hctor, -, hembedding⟩ := hdeclared hfits
    exact ⟨queries, custom, hqueries, hpackage, hentry, hctor, hembedding⟩
  · obtain ⟨text, htext, -, hdeclared⟩ :=
      hscaffolds .service "user" ⟨none, "User", "user", "u"⟩ _ _ (by decide +kernel) hservice rfl
    obtain ⟨result, hresult⟩ := hdeclared nofun
    exact ⟨text, result, htext, hresult⟩

/-! ## A default that ends a tag -/

/-- A table of notes with a mark, which is a quote of raw strings unless it is given. -/
def notesModel : GoStruct :=
  GoStruct.ofColumns "notes" "Note" "db"
    [{ table := "notes", name := "mark", databaseType := "VARCHAR", columnType := "varchar(8)"
       nullable := false, default := some "`" }] {} {}

theorem fieldsBreak_notes :
    (RenderContext.ofModel notesModel "").FieldsBreak := by
  have h : (renderAll (RenderContext.ofModel notesModel "").scope RenderContext.fieldsLoop).any
      (fun fields =>
        decide ((Go.Reader.read ⟨.code, ['\x7d']⟩ fields.toList).mode = .broken)) = true := by
    decide +kernel
  obtain ⟨fields, hfields, hbroken⟩ := (Option.any_eq_true _ _).mp h
  exact ⟨fields, hfields, of_decide_eq_true hbroken⟩

/-- A default that is a quote of raw strings ends the tag of its field; the model is let through,
and nothing of its file can be read from there on. -/
theorem mark_undeclared :
    ¬ ∀ (emitter : Emitter) (model : GoStruct),
      emitter.library = .builtin → emitter.formatter = .passthrough →
      (RenderContext.ofModel model emitter.project).validate = .ok () →
      ∃ queries, (∀ directory tree, emitter.Yields directory model .queries tree queries) ∧
        Go.DeclaresFunction queries ("New" ++ model.structName ++ "Db")
          (model.structName ++ "Repo") := by
  intro hall
  have hvalid : (RenderContext.ofModel notesModel "").validate = .ok () := by
    rw [RenderContext.validate_eq_ok_iff_invalidReason?]
    decide +kernel
  have hsuits : Suits (RenderContext.ofModel notesModel "").scope queriesUses := by decide +kernel
  obtain ⟨queries, hyields, -, -, params, -, hstands⟩ := hall {} notesModel rfl rfl hvalid
  obtain ⟨text, htext⟩ := Option.isSome_iff_exists.mp
    (renderAll_repositoryQueries (RenderContext.ofModel notesModel ""))
  have hown : ({} : Emitter).Yields ⟨""⟩ notesModel .queries {} (generatedHeader ++ "\n" ++ text) :=
    Emitter.yields_queries ⟨""⟩ {} rfl rfl hvalid htext
  obtain rfl : queries = generatedHeader ++ "\n" ++ text :=
    Option.some.inj (Except.ok.inj ((hyields ⟨""⟩ {}).prepared.symm.trans hown.prepared))
  exact fieldsBreak_notes.not_stands hsuits htext hstands

end GormForge
