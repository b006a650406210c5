import GormForge.Proofs.Template.Expansion

/-!
# Rendering the built-in templates

**Results.**
* `renderAll_repositoryQueries`, `renderAll_repositoryCustom`: the templates of a repository
  render for every model.
-/

namespace GormForge
namespace Template

variable {scope : Scope}

/-- A loop renders when its body renders for every item. -/
theorem isSome_render_loop
    {item : String}
    {items : Expr}
    {body empty : List Node}
    {values : List Value}
    (hitems : items.eval scope = some (.list values))
    (hbody : ∀ value ∈ values, ∀ progress : Value,
      (renderAll ((item, value) :: ("loop", progress) :: scope) body).isSome = true)
    (hempty : (renderAll scope empty).isSome = true) :
    (Node.render scope (.loop item items body empty)).isSome = true := by
  have hsome : ∀ {other : Scope} {nodes : List Node}, (renderAll other nodes).isSome = true →
      ∃ text, renderAll other nodes = some text ∧ True := fun h => by
    obtain ⟨text, htext⟩ := Option.isSome_iff_exists.mp h
    exact ⟨text, htext, trivial⟩
  obtain ⟨text, htext, -⟩ := exists_render_loop (P := fun _ => True) hitems trivial
    (fun _ _ _ _ => trivial) (fun value hvalue progress => hsome (hbody value hvalue progress))
    (hsome hempty)
  rw [htext, Option.isSome_some]

/-- Where nothing overrides a built-in template, its text is what that renders to. -/
theorem Library.renderWith_of_missing
    {library : Library}
    {tree : FileTree}
    {kind : Kind}
    {text : String}
    (hmissing : library.overrideOf? tree kind = .ok none)
    (h : renderAll scope kind.builtin = some text) :
    library.renderWith tree kind scope = .ok text := by
  simp only [renderWith, hmissing, expand?, h]

/-! ## The templates of a repository -/

/-- The names that the templates of a repository use. -/
def repositoryNames : List (List Char) :=
  ["package", "struct_name", "struct_comment", "table_name", "interface_name",
    "primary_key_type", "primary_key_column"].map String.toList

/-- The members of a field that the templates use. -/
def fieldNames : List (List Char) :=
  ["field.name", "field.type", "field.tags"].map String.toList

theorem fills_repositoryNames
    (context : RenderContext) :
    ∀ name ∈ repositoryNames, Fills context.scope name := by
  simp only [repositoryNames, List.map_cons, List.map_nil, List.forall_mem_cons]
  exact ⟨rfl, rfl, rfl, rfl, rfl, rfl, rfl, by simp⟩

theorem fills_fieldNames
    (field : FieldContext)
    (scope : Scope) :
    ∀ name ∈ fieldNames, Fills (("field", field.value) :: scope) name := by
  simp only [fieldNames, List.map_cons, List.map_nil, List.forall_mem_cons]
  exact ⟨rfl, rfl, rfl, by simp⟩

set_option maxRecDepth 4000 in
/-- The template for generated queries renders for every model. -/
theorem renderAll_repositoryQueries
    (context : RenderContext) :
    (renderAll context.scope repositoryQueries).isSome = true := by
  have hknown := fills_repositoryNames context
  unfold repositoryQueries
  simp only [isSome_renderAll_append, isSome_renderAll_cons, Bool.and_eq_true]
  refine ⟨⟨⟨⟨?_, ?_, rfl⟩, ?_⟩, ?_, rfl⟩, ?_⟩
  · exact renderAll_code hknown (by repeat (first | exact lines_nil | refine lines_cons rfl ?_))
  · refine isSome_render_loop rfl (fun value hvalue progress => ?_) rfl
    obtain ⟨path, -, rfl⟩ := List.mem_map.mp hvalue
    have himport : ∀ name ∈ ["import".toList],
        Fills (("import", .string path) :: ("loop", progress) :: context.scope) name := by
      simp only [List.forall_mem_cons]
      exact ⟨rfl, by simp⟩
    exact renderAll_code himport (lines_cons rfl lines_nil)
  · exact renderAll_code hknown (by repeat (first | exact lines_nil | refine lines_cons rfl ?_))
  · refine isSome_render_loop rfl (fun value hvalue progress => ?_) rfl
    obtain ⟨field, -, rfl⟩ := List.mem_map.mp hvalue
    rw [isSome_renderAll_append, isSome_renderAll_cons, Bool.and_eq_true, Bool.and_eq_true]
    refine ⟨renderAll_nodesOf (fills_fieldNames field _) rfl, ?_, rfl⟩
    -- the comment is put out only if there is one
    cases hcomment : field.comment.isEmpty <;>
      simp [Node.render, Expr.eval, List.lookup_cons, FieldContext.value, Value.member?,
        Value.isTruthy?, Value.shown, hcomment]
  · exact renderAll_code hknown (by repeat (first | exact lines_nil | refine lines_cons rfl ?_))

/-- The template for queries written by hand renders for every model. -/
theorem renderAll_repositoryCustom
    (context : RenderContext) :
    (renderAll context.scope repositoryCustom).isSome = true :=
  renderAll_code (fills_repositoryNames context)
    (by repeat (first | exact lines_nil | refine lines_cons rfl ?_))

end Template
end GormForge
