import GormForge.Model.Context
import GormForge.Proofs.Go.Identifier
import GormForge.Proofs.Naming.Skeleton

/-!
# Contexts that are not refused

Which names a context of a model can hold when validation lets it through.

**Algorithm.**  Of the names of the struct and of the package the first character is looked at,
too; of the name of a field only whether it is a word.

**Results.**
* `RenderContext.validate_eq_ok_iff`: what a context has to be like to be let through.
* `RenderContext.identifiers_iff`: all its names are identifiers then, unless a field begins with
  a digit.
-/

namespace GormForge
namespace RenderContext

variable {context : RenderContext}

theorem validate_eq_ok_iff_invalidReason? :
    context.validate = .ok () ↔ context.invalidReason? = none := by
  unfold validate
  cases context.invalidReason? <;> simp

/-- A context is let through when its struct is an exported word, its package has an identifier
for a name, and it has fields, all of them named by words. -/
theorem validate_eq_ok_iff :
    context.validate = .ok () ↔
      Go.isExportedWord context.structName = true ∧ Go.IsIdentifier context.package ∧
        context.fields ≠ [] ∧ ∀ field ∈ context.fields, Go.isWord field.name = true := by
  rw [validate_eq_ok_iff_invalidReason?, ← Go.isPackageName_iff]
  unfold invalidReason?
  cases hstruct : Go.isExportedWord context.structName with
  | false => simp
  | true =>
      cases hpackage : Go.isPackageName context.package with
      | false => simp
      | true => cases hfields : context.fields <;> simp

/-- The names that Go code is made of: the struct, the package and the fields. -/
structure HasIdentifiers (context : RenderContext) : Prop where
  structName : Go.IsIdentifier context.structName
  package : Go.IsIdentifier context.package
  fields : ∀ field ∈ context.fields, Go.IsIdentifier field.name

/-- In a context that is let through the names of the struct and of the package are identifiers
and those of the fields are words; so all of them are identifiers exactly if no field begins with
a digit, which is not looked at. -/
theorem identifiers_iff
    (h : context.validate = .ok ()) :
    Go.IsIdentifier context.structName ∧ Go.IsIdentifier context.package ∧
      (∀ field ∈ context.fields, Go.isWord field.name = true) ∧
      (context.HasIdentifiers ↔
        ∀ field ∈ context.fields, Go.beginsWithDigit field.name = false) := by
  obtain ⟨hstruct, hpackage, -, hfields⟩ := validate_eq_ok_iff.mp h
  have hidentifier := Go.isIdentifier_of_isExportedWord hstruct
  refine ⟨hidentifier, hpackage, hfields, ?_⟩
  constructor
  · intro hnames field hfield
    exact (Go.isIdentifier_iff.mp (hnames.fields field hfield)).2
  · intro hdigits
    refine ⟨hidentifier, hpackage, fun field hfield => ?_⟩
    exact Go.isIdentifier_iff.mpr ⟨hfields field hfield, hdigits field hfield⟩

/-- The context of a table whose columns hold integers. -/
def ofIntColumns (columns : List String) : RenderContext :=
  ofModel (GoStruct.ofColumns "users" "User" "db" (columns.map GoStruct.intColumn) {} {}) ""

theorem user_identifiers :
    (ofIntColumns ["id", "api_url"]).validate = .ok () ∧
      (ofIntColumns ["id", "api_url"]).HasIdentifiers := by
  have hvalid : (ofIntColumns ["id", "api_url"]).validate = .ok () := by
    rw [validate_eq_ok_iff_invalidReason?]
    decide +kernel
  exact ⟨hvalid, (identifiers_iff hvalid).2.2.2.mpr (by decide +kernel)⟩

/-- A column whose name begins with a digit gives a field whose name does, too, and the context
is let through. -/
theorem digit_first_passes :
    ¬ ∀ context : RenderContext, context.validate = .ok () → context.HasIdentifiers := by
  intro hall
  have hvalid : (ofIntColumns ["id", "2fa"]).validate = .ok () := by
    rw [validate_eq_ok_iff_invalidReason?]
    decide +kernel
  have hnames := hall _ hvalid
  have hdigits : ∀ field ∈ (ofIntColumns ["id", "2fa"]).fields,
      Go.beginsWithDigit field.name = false := fun field hfield =>
    (Go.isIdentifier_iff.mp (hnames.fields field hfield)).2
  exact absurd hdigits (by decide +kernel)

end RenderContext
end GormForge
