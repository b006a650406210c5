import GormForge.Proofs.Emission.Independence
import GormForge.Proofs.Model.Imports
import GormForge.Proofs.Model.Options
import GormForge.Proofs.Model.Validation
import GormForge.Proofs.Template.Reading
import GormForge.Wiring.Insertion

/-!
# What the files of a model declare

**Input.**  A model whose context is let through, the built-in templates and a formatter that
leaves every source as it is.

**Algorithm.**  The templates are walked through once, with the places of their holes; names that
are words can stand in all of these places.  What else is put in is free text, of which some
keeps its place and some does not.

**Results.**
* `RenderContext.renders_queries`, `RenderContext.renders_custom`: where the declarations stand in
  the two files of a model whose texts keep their places.
* `Emitter.exists_declared`: both files belong to the package of the model and, if its texts keep
  their places, declare what the constructor of the model needs.
-/

namespace GormForge

open Template

/-! ## Fields -/

theorem Field.commentLine_eq
    (field : Field) :
    field.commentLine = "" ∨
      ∃ text : String, field.commentLine = "// " ++ text ∧ '\n' ∉ text.toList := by
  unfold commentLine
  split
  · exact Or.inl rfl
  · refine Or.inr ⟨_, rfl, fun hmem => ?_⟩
    rw [String.toList_map] at hmem
    obtain ⟨c, -, hc⟩ := List.mem_map.mp hmem
    split at hc
    · cases hc
    · next hother => exact hother (Or.inr hc)

namespace Template

variable {scope : Scope}
variable {uses : Uses}
variable {name : List Char}
variable {mode : Go.Mode}
variable {s : String}

theorem suits_nil :
    Suits scope [] := by
  simp [Suits]

theorem suits_cons
    (hname : ((nameExpr name).eval scope).bind Value.shown = some s)
    (hkeeps : Go.Keeps mode s)
    (hrest : Suits scope uses) :
    Suits scope ((name, mode) :: uses) := by
  refine List.forall_mem_cons.mpr ⟨⟨?_, ?_⟩, hrest⟩
  · simp only [Fills, hname, Option.isSome_some]
  · simpa only [filling, hname, Option.getD_some] using hkeeps

/-! ## The places of the holes -/

/-- Where the holes of the template for generated queries may stand. -/
def queriesUses : Uses :=
  [("package".toList, .code), ("struct_name".toList, .code), ("struct_name".toList, .lineComment),
    ("struct_comment".toList, .lineComment), ("table_name".toList, .string),
    ("interface_name".toList, .code), ("interface_name".toList, .lineComment),
    ("primary_key_type".toList, .code), ("primary_key_column".toList, .string)]

/-- Where the holes of the line of a field may stand. -/
def fieldUses : Uses :=
  [("field.name".toList, .code), ("field.type".toList, .code), ("field.tags".toList, .raw)]

/-- Where the holes of the template for queries written by hand may stand. -/
def customUses : Uses :=
  [("package".toList, .code), ("struct_name".toList, .code), ("struct_name".toList, .lineComment),
    ("table_name".toList, .lineComment), ("interface_name".toList, .code)]

end Template

/-! ## Models whose texts fit -/

/-- The texts of a model that are put in around its fields keep the places that the templates have
for them. -/
structure GoStruct.FitsAround (model : GoStruct) : Prop where
  interfaceName : Go.IsIdentifier model.interfaceName
  tableName : Go.Keeps .string model.tableName
  tableComment : Go.Keeps .lineComment model.tableName
  primaryKeyType : Go.Keeps .code model.primaryKeyType
  primaryKeyColumn : ∀ field ∈ model.primaryKey?, Go.Keeps .string field.column

/-- All texts of a model keep their places. -/
structure GoStruct.Fits (model : GoStruct) : Prop extends model.FitsAround where
  fieldType : ∀ field ∈ model.fields, Go.Keeps .code field.goType
  fieldTags : ∀ field ∈ model.fields, Go.Keeps .raw field.tags

/-- The Go type of a column can stand in code, whatever its declared type is. -/
theorem Field.keeps_typeOf
    {column : Column}
    (options : FieldOptions)
    (h : ∀ scan ∈ column.scanType, column.useScanType = true → Go.Keeps .code scan.name) :
    Go.Keeps .code (typeOf column options) := by
  have hresolved : ∀ goType ∈ GoType.resolved, Go.Keeps .code goType := by decide +kernel
  have hsigned : Go.Keeps .code (signedType column) := by
    unfold signedType
    split
    · next scan huse hscan => exact h scan hscan huse
    · exact hresolved _ (GoType.resolve_mem _ _)
  have hbase : Go.Keeps .code (baseType column options) := by
    unfold baseType
    simp only
    split
    · exact .append (by decide +kernel) hsigned
    · exact hsigned
  unfold typeOf
  simp only
  split
  · decide +kernel
  · split
    · exact .append (by decide +kernel) hbase
    · exact hbase

/-- The model of a table fits if the names of the table and of the key hold nothing that says
something in a string, and the tags no quote of raw strings. -/
theorem GoStruct.fits_ofColumns
    {table structName package : String}
    {columns : List Column}
    {naming : NamingConvention}
    {options : FieldOptions}
    (hstruct : Go.isExportedWord structName = true)
    (htable : table.toList.any Go.isStringMark = false)
    (hkey : ∀ column ∈ columns, column.primaryKey = true →
      column.name.toList.any Go.isStringMark = false)
    (htypes : ∀ column ∈ columns, ∀ scan ∈ column.scanType, column.useScanType = true →
      Go.Keeps .code scan.name)
    (htags : ∀ column ∈ columns,
      Go.rawQuote ∉ (Field.ofColumn column naming options).tags.toList) :
    (ofColumns table structName package columns naming options).Fits := by
  have hgoTypes : ∀ field ∈ (ofColumns table structName package columns naming options).fields,
      Go.Keeps .code field.goType := by
    intro field hfield
    obtain ⟨column, hcolumn, rfl⟩ := List.mem_map.mp hfield
    exact Field.keeps_typeOf options (htypes column hcolumn)
  refine {
    interfaceName := Go.isIdentifier_lowerFirst hstruct
    tableName := Go.keeps_string htable
    tableComment := Go.keeps_lineComment fun hline => List.any_eq_false.mp htable _ hline rfl
    primaryKeyType := ?_
    primaryKeyColumn := ?_
    fieldType := hgoTypes
    fieldTags := ?_ }
  · change Go.Keeps .code ((Option.map _ (List.find? _ _)).getD GoType.int64)
    cases hfound : List.find? (·.isPrimaryKey)
        (columns.map fun column => Field.ofColumn column naming options) with
    | none =>
        change Go.Keeps .code "int64"
        decide +kernel
    | some field => exact hgoTypes field (List.mem_of_find?_eq_some hfound)
  · intro field hfield
    have hprimary : field.isPrimaryKey = true := by
      simpa using List.find?_some hfield
    obtain ⟨column, hcolumn, rfl⟩ := List.mem_map.mp (List.mem_of_find?_eq_some hfield)
    exact Go.keeps_string (hkey column hcolumn hprimary)
  · intro field hfield
    obtain ⟨column, hcolumn, rfl⟩ := List.mem_map.mp hfield
    exact Go.keeps_raw (htags column hcolumn)

namespace RenderContext

variable {model : GoStruct}
variable {project : String}

theorem keeps_structComment
    (h : model.FitsAround) :
    Go.Keeps .lineComment model.structComment := by
  unfold GoStruct.structComment
  split
  · decide +kernel
  · have hlead : Go.Keeps .lineComment "mapped from table <" := by decide +kernel
    have hend : Go.Keeps .lineComment ">" := by decide +kernel
    exact (hlead.append h.tableComment).append hend

theorem keeps_primaryKeyColumn
    (h : model.FitsAround) :
    Go.Keeps .string (ofModel model project).primaryKeyColumn := by
  unfold ofModel
  cases hkey : model.primaryKey? with
  | none =>
      change Go.Keeps .string "id"
      decide +kernel
  | some field => exact h.primaryKeyColumn field hkey

theorem suits_queriesUses
    (hvalid : (ofModel model project).validate = .ok ())
    (h : model.FitsAround) :
    Suits (ofModel model project).scope queriesUses := by
  obtain ⟨hexported, hpackage, -, -⟩ := validate_eq_ok_iff.mp hvalid
  have hstruct := Go.isWord_of_isExportedWord hexported
  have hpackage := Go.isWord_of_isPackageName (Go.isPackageName_iff.mpr hpackage)
  have hinterface := (Go.isIdentifier_iff.mp h.interfaceName).1
  unfold queriesUses
  exact suits_cons rfl (Go.keeps_of_isWord hpackage (by decide)) <|
    suits_cons rfl (Go.keeps_of_isWord hstruct (by decide)) <|
    suits_cons rfl (Go.keeps_of_isWord hstruct (by decide)) <|
    suits_cons rfl (keeps_structComment h) <|
    suits_cons rfl h.tableName <|
    suits_cons rfl (Go.keeps_of_isWord hinterface (by decide)) <|
    suits_cons rfl (Go.keeps_of_isWord hinterface (by decide)) <|
    suits_cons rfl h.primaryKeyType <|
    suits_cons rfl (keeps_primaryKeyColumn h) suits_nil

theorem suits_customUses
    (hvalid : (ofModel model project).validate = .ok ())
    (h : model.FitsAround) :
    Suits (ofModel model project).scope customUses := by
  obtain ⟨hexported, hpackage, -, -⟩ := validate_eq_ok_iff.mp hvalid
  have hstruct := Go.isWord_of_isExportedWord hexported
  have hpackage := Go.isWord_of_isPackageName (Go.isPackageName_iff.mpr hpackage)
  have hinterface := (Go.isIdentifier_iff.mp h.interfaceName).1
  unfold customUses
  exact suits_cons rfl (Go.keeps_of_isWord hpackage (by decide)) <|
    suits_cons rfl (Go.keeps_of_isWord hstruct (by decide)) <|
    suits_cons rfl (Go.keeps_of_isWord hstruct (by decide)) <|
    suits_cons rfl h.tableComment <|
    suits_cons rfl (Go.keeps_of_isWord hinterface (by decide)) suits_nil

end RenderContext

/-! ## Lines of fields -/

namespace FieldContext

variable {field : FieldContext}
variable {scope : Scope}

/-- The part of a field's line that puts out its comment. -/
def commentNode : Node :=
  .output (.choose (.join (.literal (.string " ")) (.member (.name "field") "comment"))
    (.member (.name "field") "comment") (some (.literal (.string ""))))

/-- What is put out for the comment of a field. -/
def commentText (field : FieldContext) : String :=
  if field.comment.isEmpty then "" else " " ++ field.comment

theorem render_commentNode
    (field : FieldContext)
    (scope : Scope) :
    commentNode.render (("field", field.value) :: scope) = some field.commentText := by
  unfold commentText commentNode
  cases hcomment : field.comment.isEmpty <;>
    simp [Node.render, Expr.eval, List.lookup_cons, value, Value.member?, Value.isTruthy?,
      Value.shown, Value.text, hcomment]

/-- A comment at the end of a line leads back into code. -/
theorem read_commentText
    (due : List Char)
    (h : field.comment = "" ∨
      ∃ text : String, field.comment = "// " ++ text ∧ '\n' ∉ text.toList) :
    Go.Reader.read ⟨.code, due⟩ (field.commentText ++ "\n").toList = ⟨.code, due⟩ := by
  unfold commentText
  rcases h with hnone | ⟨text, htext, hline⟩
  · rw [if_pos (by simp [hnone])]
    simp
    rfl
  · have hread := (Go.keeps_lineComment hline).read_eq due
    rw [if_neg (by simp [htext]), htext]
    simp only [String.toList_append, Go.Reader.read_append]
    change Go.Reader.read (Go.Reader.read ⟨.lineComment, due⟩ text.toList) _ = _
    rw [hread]
    rfl

theorem suits_fieldUses
    (scope : Scope)
    (hname : Go.isWord field.name = true)
    (htype : Go.Keeps .code field.goType)
    (htags : Go.Keeps .raw field.tags) :
    Suits (("field", field.value) :: scope) fieldUses := by
  unfold fieldUses
  exact suits_cons rfl (Go.keeps_of_isWord hname (by decide)) <|
    suits_cons rfl htype <| suits_cons rfl htags suits_nil

/-- The line of a field begins and ends in code. -/
theorem renders_line
    (scope : Scope)
    (hname : Go.isWord field.name = true)
    (htype : Go.Keeps .code field.goType)
    (htags : Go.Keeps .raw field.tags)
    (hcomment : field.comment = "" ∨
      ∃ text : String, field.comment = "// " ++ text ∧ '\n' ∉ text.toList) :
    Renders (("field", field.value) :: scope)
      (nodesOf "\t‹field.name› ‹field.type› `‹field.tags›`".toList ++ [commentNode, .text "\n"])
      ⟨.code, ['\x7d']⟩ ⟨.code, ['\x7d']⟩ [] := by
  have hsuits := suits_fieldUses scope hname htype htags
  have hwalk : walk fieldUses ⟨.code, ['\x7d']⟩ none
      "\t‹field.name› ‹field.type› `‹field.tags›`".toList = some ⟨.code, ['\x7d']⟩ := by
    decide +kernel
  have hfront := renderAll_nodesOf_eq hsuits.fills (scan_of_walk hwalk)
  have hback : renderAll (("field", field.value) :: scope) [commentNode, .text "\n"] =
      some (field.commentText ++ "\n") := by
    simp [renderAll, render_commentNode, Node.render]
  refine ⟨_, renderAll_append_eq hfront hback, ?_, ?_, by simp⟩
  · rw [String.toList_append, String.toList_append, ← List.append_assoc]
    exact Go.endsLine_concat _
  · rw [String.toList_append, String.toList_ofList, Go.Reader.read_append, read_expand hsuits hwalk]
    exact read_commentText _ hcomment

end FieldContext

/-! ## Templates -/

namespace RenderContext

variable {model : GoStruct}
variable {project : String}

/-- The declaration of the constructor of a model. -/
def ctorHead (model : GoStruct) : String :=
  Go.functionHead ("New" ++ model.structName ++ "Db") "db *gorm.DB" (model.structName ++ "Repo")

/-- The declaration of the interface for queries written by hand. -/
def embeddingText (model : GoStruct) : String :=
  Go.interfaceHead (model.structName ++ "Repo") ++ "\t" ++ (model.interfaceName ++ "Gen") ++
    "\n\x7d\n"

/-- The part of the template for generated queries that puts out the fields. -/
def fieldsLoop : List Node :=
  [.loop "field" (.name "fields")
    (nodesOf "\t‹field.name› ‹field.type› `‹field.tags›`".toList ++
      [FieldContext.commentNode, .text "\n"]) []]

theorem renders_imports :
    Renders (ofModel model project).scope
      [.loop "import" (.name "imports") (code ["\t\"‹import›\""]) []]
      ⟨.code, [')']⟩ ⟨.code, [')']⟩ [] := by
  refine renders_loop rfl fun value hvalue progress => ?_
  obtain ⟨path, hpath, rfl⟩ := List.mem_map.mp hvalue
  have hkeeps : ∀ path ∈ ImportSet.known, Go.Keeps .string path := by decide +kernel
  have hpath := hkeeps path (ImportSet.mem_known hpath)
  refine renders_code (suits_cons rfl hpath suits_nil : Suits _ [("import".toList, _)]) ?_
    (List.forall_mem_nil _)
  simp only [List.map_cons, List.map_nil]
  repeat rw [String.toList_ofList]
  decide +kernel

theorem renders_fieldsLoop
    (hvalid : (ofModel model project).validate = .ok ())
    (h : model.Fits) :
    Renders (ofModel model project).scope fieldsLoop ⟨.code, ['\x7d']⟩ ⟨.code, ['\x7d']⟩ [] := by
  obtain ⟨-, -, -, hfields⟩ := validate_eq_ok_iff.mp hvalid
  refine renders_loop rfl fun value hvalue progress => ?_
  obtain ⟨context, hcontext, rfl⟩ := List.mem_map.mp hvalue
  obtain ⟨field, hfield, rfl⟩ := List.mem_map.mp hcontext
  exact FieldContext.renders_line _ (hfields _ hcontext) (h.fieldType field hfield)
    (h.fieldTags field hfield) field.commentLine_eq

/-- What stands before and after the fields leads into the struct and out of it, whatever the
fields are. -/
theorem exists_aroundFields
    (h : Suits (ofModel model project).scope queriesUses) :
    ∃ front back, repositoryQueries = front ++ fieldsLoop ++ back ∧
      Renders (ofModel model project).scope front .top ⟨.code, ['\x7d']⟩ [] ∧
      Renders (ofModel model project).scope back ⟨.code, ['\x7d']⟩ .top
        [(ctorHead model).toList,
          (Go.interfaceHead (model.interfaceName ++ "Gen")).toList] := by
  refine ⟨_, _, rfl, (Renders.append ?_ renders_imports).append ?_, ?_⟩
  · refine renders_code h ?_ (List.forall_mem_nil _)
    simp only [List.map_cons, List.map_nil]
    repeat rw [String.toList_ofList]
    decide +kernel
  · refine renders_code h ?_ (List.forall_mem_nil _)
    simp only [List.map_cons, List.map_nil]
    repeat rw [String.toList_ofList]
    decide +kernel
  · refine renders_code h ?_ ?_
    · simp only [List.map_cons, List.map_nil]
      repeat rw [String.toList_ofList]
      decide +kernel
    · simp only [List.map_cons, List.map_nil, List.forall_mem_cons]
      refine ⟨⟨20, begins_of_line rfl ?_ ?_⟩, ⟨8, begins_of_line rfl ?_ ?_⟩,
        List.forall_mem_nil _⟩
      · repeat rw [String.toList_ofList]
        decide +kernel
      · simp only [ctorHead, Go.functionHead, String.toList_append, List.append_assoc]
        repeat rw [String.toList_ofList]
        rfl
      · repeat rw [String.toList_ofList]
        decide +kernel
      · simp only [Go.interfaceHead, String.toList_append, List.append_assoc]
        repeat rw [String.toList_ofList]
        rfl

theorem renders_queries
    (hvalid : (ofModel model project).validate = .ok ())
    (h : model.Fits) :
    Renders (ofModel model project).scope repositoryQueries .top .top
      [(ctorHead model).toList,
        (Go.interfaceHead (model.interfaceName ++ "Gen")).toList] := by
  obtain ⟨front, back, hparts, hfront, hback⟩ :=
    exists_aroundFields (suits_queriesUses hvalid h.toFitsAround)
  rw [hparts]
  exact (hfront.append (renders_fieldsLoop hvalid h)).append hback

theorem expandLines_embedding
    (model : GoStruct)
    (project : String) :
    expandLines (ofModel model project).scope
      ["type ‹struct_name›Repo interface ⟦".toList, "\t‹interface_name›Gen".toList, "⟧".toList] =
        (embeddingText model).toList := by
  have hscan : ∀ line ∈ ["type ‹struct_name›Repo interface ⟦".toList,
      "\t‹interface_name›Gen".toList, "⟧".toList],
      scan (customUses.map Prod.fst) none line = true := by
    repeat rw [String.toList_ofList]
    decide +kernel
  rw [← (expand_flatMap _ hscan).2, embeddingText, Go.interfaceHead]
  simp only [String.toList_append, List.append_assoc]
  repeat rw [String.toList_ofList]
  rfl

theorem renders_custom
    (hvalid : (ofModel model project).validate = .ok ())
    (h : model.Fits) :
    Renders (ofModel model project).scope repositoryCustom .top .top
      [(embeddingText model).toList] := by
  unfold repositoryCustom
  refine renders_code (suits_customUses hvalid h.toFitsAround) ?_ ?_
  · simp only [List.map_cons, List.map_nil]
    repeat rw [String.toList_ofList]
    decide +kernel
  · refine List.forall_mem_singleton.mpr ⟨4, ?_, [], ?_⟩
    · simp only [List.map_cons, List.map_nil]
      repeat rw [String.toList_ofList]
      decide +kernel
    · rw [List.append_nil, ← expandLines_embedding model project]
      rfl

/-! ## Packages -/

theorem expand_packageLine
    (context : RenderContext) :
    expand context.scope none ("package ‹package›".toList ++ ['\n']) =
      "package ".toList ++ (context.package.toList ++ ['\n']) := by
  repeat rw [String.toList_ofList]
  rfl

/-- Both files of a model begin with the clause of its package. -/
theorem exists_clause
    {context : RenderContext}
    {text : String}
    (file : ModelFile)
    (h : renderAll context.scope file.kind.builtin = some text) :
    ∃ rest, text.toList = "package ".toList ++ context.package.toList ++ '\n' :: rest := by
  have hknown := fills_repositoryNames context
  have hfirst : ∃ rest, text.toList =
      expand context.scope none ("package ‹package›".toList ++ ['\n']) ++ rest := by
    cases file with
    | queries =>
        unfold ModelFile.kind Kind.builtin repositoryQueries at h
        rw [List.append_assoc, List.append_assoc, List.append_assoc] at h
        exact exists_first hknown
          (by repeat (first | exact lines_nil | refine lines_cons rfl ?_)) h
    | custom =>
        unfold ModelFile.kind Kind.builtin repositoryCustom at h
        rw [← List.append_nil (code _)] at h
        exact exists_first hknown
          (by repeat (first | exact lines_nil | refine lines_cons rfl ?_)) h
  obtain ⟨rest, hrest⟩ := hfirst
  rw [expand_packageLine] at hrest
  exact ⟨rest, by simpa using hrest⟩

end RenderContext

/-! ## Emitted files -/

/-- The files of a model declare what its constructor and its provider entry name. -/
structure GoStruct.Declared (model : GoStruct) (queries custom : String) : Prop where
  ctor : Go.DeclaresFunction queries ("New" ++ model.structName ++ "Db") (model.structName ++ "Repo")
  interface : Go.DeclaresInterface queries (model.interfaceName ++ "Gen")
  embedding : Go.DeclaresEmbedding custom (model.structName ++ "Repo") (model.interfaceName ++ "Gen")

namespace Emitter

open RenderContext

variable {emitter : Emitter}
variable {directory : Path}
variable {model : GoStruct}
variable {file : ModelFile}
variable {tree : FileTree}
variable {text queries custom : String}

/-- A file of a model gets a text: it is what is prepared for the file, and what the file holds
once it is emitted. -/
structure Yields (emitter : Emitter) (directory : Path) (model : GoStruct) (file : ModelFile)
    (tree : FileTree) (text : String) : Prop where
  prepared : emitter.prepareFile directory model file tree = .ok (some text)
  stored : ∀ emitted after, emitter.emitFile directory model file tree = (.ok emitted, after) →
    after.readText (file.pathIn directory model) = .ok text

theorem yields_of_prepareFile
    (h : emitter.prepareFile directory model file tree = .ok (some text)) :
    emitter.Yields directory model file tree text := by
  refine ⟨h, fun emitted after hemit => ?_⟩
  obtain ⟨prepared, hprepare, hstore⟩ := emitFile_eq_ok_iff.mp hemit
  cases hprepare.symm.trans h
  obtain ⟨result, hresult, -⟩ := storeFile_eq_ok_iff.mp hstore
  exact (GeneratedFile.inPlace_store hresult).1

/-- The header goes on top of generated queries. -/
theorem withHeader_queries
    {context : RenderContext}
    (h : renderAll context.scope repositoryQueries = some queries) :
    ModelFile.queries.rules.withHeader queries = generatedHeader ++ "\n" ++ queries := by
  obtain ⟨rest, hrest⟩ := exists_clause .queries h
  have hother : Text.beginsWith generatedHeader.toList queries.toList = false := by
    rw [hrest]
    simp [generatedHeader, Text.beginsWith, Text.afterPrefix?]
  simp [ModelFile.rules, FileRules.generated, FileRules.withHeader, hother]

/-- The text for generated queries, below the header. -/
theorem yields_queries
    (directory : Path)
    (tree : FileTree)
    (hlibrary : emitter.library = .builtin)
    (hformatter : emitter.formatter = .passthrough)
    (hvalid : (ofModel model emitter.project).validate = .ok ())
    (h : renderAll (ofModel model emitter.project).scope repositoryQueries = some text) :
    emitter.Yields directory model .queries tree (generatedHeader ++ "\n" ++ text) := by
  rw [← withHeader_queries h]
  refine yields_of_prepareFile (prepareFile_of_renderAll hvalid ?_ hformatter ?_ h)
  · rw [hlibrary]
    rfl
  · rintro ⟨hrules, -⟩
    cases hrules

/-- The text for queries written by hand, if there is none yet. -/
theorem yields_custom
    (hlibrary : emitter.library = .builtin)
    (hformatter : emitter.formatter = .passthrough)
    (hvalid : (ofModel model emitter.project).validate = .ok ())
    (hmissing : tree.pathExists (ModelFile.custom.pathIn directory model) = false)
    (h : renderAll (ofModel model emitter.project).scope repositoryCustom = some text) :
    emitter.Yields directory model .custom tree text := by
  refine yields_of_prepareFile (prepareFile_of_renderAll hvalid ?_ hformatter ?_ h)
  · rw [hlibrary]
    rfl
  · rintro ⟨-, hexists⟩
    rw [hmissing] at hexists
    cases hexists

theorem declared_of_fits
    (hvalid : (ofModel model emitter.project).validate = .ok ())
    (hqueries : renderAll (ofModel model emitter.project).scope repositoryQueries = some queries)
    (hcustom : renderAll (ofModel model emitter.project).scope repositoryCustom = some custom)
    (h : model.Fits) :
    model.Declared (generatedHeader ++ "\n" ++ queries) custom := by
  obtain ⟨hexported, -, -, -⟩ := validate_eq_ok_iff.mp hvalid
  have hstruct := Go.isIdentifier_of_isExportedWord hexported
  obtain ⟨text, htext, -, hread, hparts⟩ := renders_queries hvalid h
  obtain rfl : text = queries := Option.some.inj (htext.symm.trans hqueries)
  obtain ⟨text', htext', -, hread', hparts'⟩ := renders_custom hvalid h
  obtain rfl : text' = custom := Option.some.inj (htext'.symm.trans hcustom)
  have hstands : ∀ part : String, Go.Holds .top text.toList part.toList →
      Go.Stands (generatedHeader ++ "\n" ++ text) part := fun part hpart =>
    .append_left (by simp [Go.EndsLine]) (by decide +kernel) ⟨hread, hpart⟩
  have hrepo : Go.IsIdentifier (model.structName ++ "Repo") := hstruct.append (by decide +kernel)
  have hgen : Go.IsIdentifier (model.interfaceName ++ "Gen") :=
    h.interfaceName.append (by decide +kernel)
  have hnew : Go.IsIdentifier "New" := Go.isIdentifier_iff.mpr (by decide +kernel)
  have hctor : Go.IsIdentifier ("New" ++ model.structName ++ "Db") :=
    (hnew.append hstruct.isWord).append (by decide +kernel)
  constructor
  · exact ⟨hctor, Go.notMem_of_isWord hrepo.isWord (by decide), "db *gorm.DB", by decide +kernel,
      hstands _ (hparts _ (List.mem_cons_self ..))⟩
  · exact ⟨hgen, hstands _ (hparts _ (List.mem_cons_of_mem _ (List.mem_cons_self ..)))⟩
  · exact ⟨hrepo, hgen, hread', hparts' _ (List.mem_cons_self ..)⟩

/-- The two files of a model, and what they say. -/
theorem exists_declared
    (hlibrary : emitter.library = .builtin)
    (hformatter : emitter.formatter = .passthrough)
    (hvalid : (ofModel model emitter.project).validate = .ok ()) :
    ∃ text custom,
      renderAll (ofModel model emitter.project).scope repositoryQueries = some text ∧
      (∀ directory tree,
        emitter.Yields directory model .queries tree (generatedHeader ++ "\n" ++ text)) ∧
      (∀ directory tree, tree.pathExists (ModelFile.custom.pathIn directory model) = false →
        emitter.Yields directory model .custom tree custom) ∧
      Go.packageOf? (generatedHeader ++ "\n" ++ text) = some model.packageName ∧
      Go.packageOf? custom = some model.packageName ∧
      (model.Fits → model.Declared (generatedHeader ++ "\n" ++ text) custom) := by
  obtain ⟨-, hpackage, -, -⟩ := validate_eq_ok_iff.mp hvalid
  have hline := Go.notMem_of_isWord (Go.isWord_of_isPackageName (Go.isPackageName_iff.mpr hpackage))
    (by decide : Go.isWordChar '\n' = false)
  obtain ⟨queries, hqueries⟩ := Option.isSome_iff_exists.mp
    (renderAll_repositoryQueries (ofModel model emitter.project))
  obtain ⟨custom, hcustom⟩ := Option.isSome_iff_exists.mp
    (renderAll_repositoryCustom (ofModel model emitter.project))
  refine ⟨queries, custom, hqueries,
    fun directory tree => yields_queries directory tree hlibrary hformatter hvalid hqueries,
    fun directory tree hmissing => yields_custom hlibrary hformatter hvalid hmissing hcustom,
    ?_, ?_, declared_of_fits hvalid hqueries hcustom⟩
  · obtain ⟨rest, hrest⟩ := exists_clause .queries hqueries
    rw [Go.packageOf?_of_comment (by decide +kernel) (by decide +kernel)]
    exact Go.packageOf?_of_clause hline hrest
  · obtain ⟨rest, hrest⟩ := exists_clause .custom hcustom
    exact Go.packageOf?_of_clause hline hrest

end Emitter
end GormForge
