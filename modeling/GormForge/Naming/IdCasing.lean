import GormForge.Text.Search

/-!
# Casing of `ID`

How `ID` inside a generated field name becomes `Id`.

**Results.**  The legacy rule changes every occurrence, so `UUID` becomes `UUId`; the
boundary rule only an `ID` that forms a word of its own.
-/

namespace GormForge

/-- A rule for the casing of `ID`. -/
inductive IdCasing where
  | legacy
  | boundary
  deriving Repr, DecidableEq, Inhabited

namespace IdCasing

/-- Whether the text begins with a small ASCII letter. -/
def smallAhead (cs : List Char) : Bool :=
  cs.head?.any Char.isLower

/-- Lower the `D` of each `ID` that forms a word.  `afterCapital` tells whether a capital
precedes, `afterInitial` whether the character before is an `I` that starts a word. -/
def boundaryFrom (afterCapital afterInitial : Bool) : List Char → List Char
  | [] => []
  | c :: cs =>
    (if afterInitial && c == 'D' && !smallAhead cs then 'd' else c) ::
      boundaryFrom c.isUpper (c == 'I' && !afterCapital) cs

/-- Apply a rule to a list of characters. -/
def applyChars : IdCasing → List Char → List Char
  | legacy, cs => Text.replaceAll "ID".toList "Id".toList cs
  | boundary, cs => boundaryFrom false false cs

/-- Apply a rule to a name. -/
def apply (casing : IdCasing) (name : String) : String :=
  String.ofList (casing.applyChars name.toList)

/-- The name of a rule. -/
def name : IdCasing → String
  | legacy => "legacy"
  | boundary => "boundary"

/-- The rule with exactly this name. -/
def ofExactName? (s : String) : Option IdCasing :=
  [legacy, boundary].find? fun casing => casing.name == s

/-- The rule with this name, whatever the case of its letters. -/
def ofName? (s : String) : Option IdCasing :=
  ofExactName? (Text.asciiLower s)

/-- The wording for a text that names no rule. -/
def unknownMessage (s : String) : String :=
  s!"unknown id casing '{Text.asciiLower s}', expected 'legacy' or 'boundary'"

end IdCasing
end GormForge
