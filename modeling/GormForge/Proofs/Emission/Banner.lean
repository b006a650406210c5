import GormForge.Proofs.Emission.Declarations
import GormForge.Proofs.Text.Splitting

/-!
# The banner of generated queries

When the first line of generated queries is the banner by which tools know generated files.

**Input.**  A model, any templates and any formatter that takes what they give.

**Algorithm.**  The banner goes on top of a text that does not begin with it.  Whether it is the
whole first line of a text that does is not asked.

**Results.**
* `FileRules.firstLine_withHeader_iff`: when a header is the first line of a text.
* `Emitter.firstLine_queries_iff`: the banner is there exactly if no longer line stands in for it.
* `Emitter.firstLine_builtin`: with the built-in template it is always there.
* `Emitter.notice_stands_in`: a template whose first line begins with the banner and goes on.
-/

namespace GormForge

open FileTree Template

/-- What stands before the first line feed of a text. -/
def firstLine (text : String) : List Char :=
  text.toList.takeWhile (· != '\n')

/-- A header is the first line of a text that it was put on, unless the text began with it and
went on in the same line. -/
theorem FileRules.firstLine_withHeader_iff
    {header : String}
    (hfeed : '\n' ∉ header.toList)
    (content : String) :
    firstLine ((FileRules.generated header).withHeader content) = header.toList ↔
      (header.toList <+: content.toList → firstLine content = header.toList) := by
  simp only [FileRules.generated, FileRules.withHeader]
  split
  · next hbegins =>
      obtain ⟨rest, hrest⟩ := Text.beginsWith_iff.mp hbegins
      have hstarts : header.toList <+: content.toList := ⟨rest, hrest.symm⟩
      simp [hstarts]
  · next hother =>
      have hnot : ¬ header.toList <+: content.toList := by
        rintro ⟨rest, hrest⟩
        exact hother (Text.beginsWith_iff.mpr ⟨rest, hrest.symm⟩)
      have hline : firstLine (header ++ "\n" ++ content) = header.toList := by
        unfold firstLine
        rw [String.append_assoc, String.toList_append, String.toList_append]
        change (header.toList ++ '\n' :: content.toList).takeWhile (· != '\n') = _
        rw [Text.takeWhile_append_stop, Text.takeWhile_of_notMem hfeed]
      simp [hnot, hline]

namespace Emitter

variable {emitter : Emitter}
variable {directory : Path}
variable {model : GoStruct}
variable {tree after : FileTree}
variable {emitted : EmittedFile}

/-- Queries that were written are what was rendered for them, below the banner. -/
theorem exists_rendered_of_emitFile
    (h : emitter.emitFile directory model .queries tree = (.ok emitted, after)) :
    ∃ formatted, emitter.render directory model .queries tree = .ok formatted ∧
      after.readText (ModelFile.queries.pathIn directory model) =
        .ok ((FileRules.generated generatedHeader).withHeader formatted) := by
  obtain ⟨prepared, hprepare, hstore⟩ := emitFile_eq_ok_iff.mp h
  obtain ⟨text, rfl⟩ := exists_text_of_prepareFile hprepare
  obtain ⟨-, formatted, hrender, rfl⟩ := GeneratedFile.prepare_eq_ok_some_iff.mp hprepare
  obtain ⟨result, hresult, -⟩ := storeFile_eq_ok_iff.mp hstore
  exact ⟨formatted, hrender, (GeneratedFile.inPlace_store hresult).1⟩

/-- Queries that were written have the banner for their first line, unless what was formatted for
them began with the banner and went on in the same line. -/
theorem firstLine_queries_iff
    (h : emitter.emitFile directory model .queries tree = (.ok emitted, after)) :
    ∃ formatted text,
      emitter.render directory model .queries tree = .ok formatted ∧
      after.readText (ModelFile.queries.pathIn directory model) = .ok text ∧
      (firstLine text = generatedHeader.toList ↔
        (generatedHeader.toList <+: formatted.toList →
          firstLine formatted = generatedHeader.toList)) := by
  obtain ⟨formatted, hrender, hread⟩ := exists_rendered_of_emitFile h
  exact ⟨formatted, _, hrender, hread,
    FileRules.firstLine_withHeader_iff (by decide) formatted⟩

/-- Without overrides and formatting, a file is what the built-in template puts out. -/
theorem renderAll_of_render
    {file : ModelFile}
    {text : String}
    (hlibrary : emitter.library = .builtin)
    (hformatter : emitter.formatter = .passthrough)
    (h : emitter.render directory model file tree = .ok text) :
    renderAll (RenderContext.ofModel model emitter.project).scope file.kind.builtin =
      some text := by
  simp only [render, hlibrary, hformatter, Library.renderWith, Library.overrideOf?,
    Library.expand?] at h
  cases hout : renderAll (RenderContext.ofModel model emitter.project).scope file.kind.builtin with
  | none =>
      rw [hout] at h
      split at h <;> cases h
  | some out =>
      rw [hout] at h
      split at h
      · cases h
      · cases h
        rfl

/-- With the built-in template the banner is always there: it puts out no comment first. -/
theorem firstLine_builtin
    (hlibrary : emitter.library = .builtin)
    (hformatter : emitter.formatter = .passthrough)
    (h : emitter.emitFile directory model .queries tree = (.ok emitted, after)) :
    ∃ text, after.readText (ModelFile.queries.pathIn directory model) = .ok text ∧
      firstLine text = generatedHeader.toList := by
  obtain ⟨formatted, hrender, hread⟩ := exists_rendered_of_emitFile h
  refine ⟨_, hread, (FileRules.firstLine_withHeader_iff (by decide) formatted).mpr ?_⟩
  rintro ⟨rest, hrest⟩
  obtain ⟨more, hmore⟩ :=
    RenderContext.exists_clause .queries (renderAll_of_render hlibrary hformatter hrender)
  rw [hmore] at hrest
  cases hrest

/-! ## A template with a notice -/

/-- A directory of templates with one in it, for generated queries. -/
def templatesWith (source : String) : FileTree where
  nodes := [(["tpl"], .directory), (["tpl", "repo_gen.tpl"], .file (.text source))]

/-- An emission with the templates of that directory. -/
def withTemplates : Emitter where
  library := .directory ⟨"tpl"⟩

/-- A model with a key. -/
def userModel : GoStruct :=
  Emission.keyModel "user" "User" "users"

/-- What a template gives for the model is formatted as it is, and written. -/
theorem exists_emitFile_templatesWith
    {source text : String}
    (h : (parse? source).bind
      (renderAll (RenderContext.ofModel userModel withTemplates.project).scope) = some text) :
    withTemplates.render ⟨"out"⟩ userModel .queries (templatesWith source) = .ok text ∧
      ∃ emitted after,
        withTemplates.emitFile ⟨"out"⟩ userModel .queries (templatesWith source) =
          (.ok emitted, after) := by
  have hvalid : (RenderContext.ofModel userModel withTemplates.project).validate = .ok () := rfl
  have hseen : withTemplates.library.overrideOf? (templatesWith source) ModelFile.queries.kind =
      .ok (some source) := rfl
  have hrender : withTemplates.render ⟨"out"⟩ userModel .queries (templatesWith source) =
      .ok text := by
    have htext : withTemplates.library.expand? ModelFile.queries.kind
        (RenderContext.ofModel userModel withTemplates.project).scope (some source) =
          some text := h
    simp only [render, hvalid, Library.renderWith, hseen, htext]
    rfl
  have hprepare : withTemplates.prepareFile ⟨"out"⟩ userModel .queries (templatesWith source) =
      .ok (some (ModelFile.queries.rules.withHeader text)) := by
    refine GeneratedFile.prepare_eq_ok_some_iff.mpr ⟨?_, text, hrender, rfl⟩
    rintro ⟨hrule, -⟩
    cases hrule
  obtain ⟨emitted, after, hstore⟩ : ∃ emitted after,
      storeFile ⟨"out"⟩ userModel .queries (some (ModelFile.queries.rules.withHeader text))
        (templatesWith source) = (.ok emitted, after) := ⟨_, _, rfl⟩
  exact ⟨hrender, emitted, after, emitFile_eq_ok_iff.mpr ⟨_, hprepare, hstore⟩⟩

/-- Above a template that begins with the clause of the package, the banner is there. -/
theorem clause_below_banner :
    ∃ emitted after,
      withTemplates.emitFile ⟨"out"⟩ userModel .queries
          (templatesWith "package \x7b\x7b package \x7d\x7d\n") = (.ok emitted, after) ∧
      ∃ text, after.readText ⟨"out/user_gen.go"⟩ = .ok text ∧
        firstLine text = generatedHeader.toList := by
  obtain ⟨hrender, emitted, after, hemit⟩ :=
    @exists_emitFile_templatesWith "package \x7b\x7b package \x7d\x7d\n" "package db\n"
      (by decide +kernel)
  obtain ⟨formatted, text, hformatted, hread, hiff⟩ := firstLine_queries_iff hemit
  cases hformatted.symm.trans hrender
  exact ⟨emitted, after, hemit, text, hread, hiff.mpr (by decide +kernel)⟩

/-- A notice that begins with the banner and goes on stands in for it. -/
theorem notice_stands_in :
    ∃ emitted after,
      withTemplates.emitFile ⟨"out"⟩ userModel .queries
          (templatesWith (generatedHeader ++ " Ask the team.\npackage \x7b\x7b package \x7d\x7d\n")) =
        (.ok emitted, after) ∧
      ∃ text, after.readText ⟨"out/user_gen.go"⟩ = .ok text ∧
        firstLine text = (generatedHeader ++ " Ask the team.").toList ∧
        firstLine text ≠ generatedHeader.toList := by
  obtain ⟨hrender, emitted, after, hemit⟩ := @exists_emitFile_templatesWith
    (generatedHeader ++ " Ask the team.\npackage \x7b\x7b package \x7d\x7d\n")
    (generatedHeader ++ " Ask the team.\npackage db\n") (by decide +kernel)
  obtain ⟨formatted, hformatted, hread⟩ := exists_rendered_of_emitFile hemit
  cases hformatted.symm.trans hrender
  exact ⟨emitted, after, hemit, _, hread, by decide +kernel, by decide +kernel⟩

end Emitter
end GormForge
