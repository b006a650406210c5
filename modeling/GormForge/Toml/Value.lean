/-!
# TOML values

**Contents.**  The values of a TOML document.  Numbers that are not integers and moments of
time keep the text they were written with.
-/

namespace GormForge
namespace Toml

/-- A TOML value; the entries of a table stand in the order in which they were written. -/
inductive Value where
  | string (s : String)
  | boolean (b : Bool)
  | integer (n : Int)
  | float (text : String)
  | moment (text : String)
  | array (items : List Value)
  | table (entries : List (String × Value))
  deriving Repr, Inhabited

namespace Value

/-- The text of a string. -/
def asString? : Value → Option String
  | string s => some s
  | _ => none

/-- The truth value of a boolean. -/
def asBoolean? : Value → Option Bool
  | boolean b => some b
  | _ => none

/-- Whether a value is an array or a table without contents. -/
def isEmpty : Value → Bool
  | array items => items.isEmpty
  | table entries => entries.isEmpty
  | _ => false

end Value

end Toml
end GormForge
