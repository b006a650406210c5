/-!
# Template values

The values that templates compute with, and how they are shown.

**Results.**  `shown` is the text of a value where it is put out, `isTruthy?` decides a
condition.  An undefined value may be passed on and joined to a text, but neither be put out
nor decide anything, unless it is a silent one.
-/

namespace GormForge
namespace Template

/-- A value in a template. -/
inductive Value where
  | undefined (silent : Bool)
  | null
  | boolean (b : Bool)
  | integer (n : Int)
  | string (s : String)
  | list (items : List Value)
  /-- Named values, sorted by name. -/
  | record (entries : List (String × Value))
  deriving Repr, Inhabited

namespace Value

/-- The text of a boolean. -/
def booleanText (b : Bool) : String :=
  if b then "True" else "False"

/-- The hexadecimal text of a number. -/
def hexText (n : Nat) : String :=
  String.ofList (Nat.toDigits 16 n)

/-- One character inside quotes. -/
def quotedChar (c : Char) : String :=
  match c with
  | '"' => "\\\""
  | '\\' => "\\\\"
  | '\n' => "\\n"
  | '\r' => "\\r"
  | '\t' => "\\t"
  | _ =>
    if c.toNat = 0 then "\\0"
    else if c.toNat < 0x20 || c.toNat = 0x7F then "\\u\x7b" ++ hexText c.toNat ++ "\x7d"
    else String.singleton c

/-- A text inside quotes. -/
def quoted (s : String) : String :=
  "\"" ++ String.join (s.toList.map quotedChar) ++ "\""

mutual

/-- The text of a value inside another one. -/
def inner : Value → String
  | undefined _ => "undefined"
  | null => "None"
  | boolean b => booleanText b
  | integer n => toString n
  | string s => quoted s
  | list items => "[" ++ String.intercalate ", " (innerItems items) ++ "]"
  | record entries => "\x7b" ++ String.intercalate ", " (innerEntries entries) ++ "\x7d"

/-- The texts of the items of a list. -/
def innerItems : List Value → List String
  | [] => []
  | v :: rest => v.inner :: innerItems rest

/-- The texts of the entries of a record. -/
def innerEntries : List (String × Value) → List String
  | [] => []
  | (name, v) :: rest => (quoted name ++ ": " ++ v.inner) :: innerEntries rest

end

/-- The text of a value on its own. -/
def text : Value → String
  | undefined _ => ""
  | string s => s
  | v => v.inner

/-- The text of a value where it is put out. -/
def shown : Value → Option String
  | undefined false => none
  | v => some v.text

/-- Whether a value counts as true in a condition. -/
def isTruthy? : Value → Option Bool
  | undefined silent => if silent then some false else none
  | null => some false
  | boolean b => some b
  | integer n => some (n != 0)
  | string s => some !s.isEmpty
  | list items => some !items.isEmpty
  | record entries => some !entries.isEmpty

/-- The member of a value; an undefined value has none, not even an undefined one. -/
def member? (name : String) : Value → Option Value
  | undefined _ => none
  | record entries => some ((entries.lookup name).getD (undefined false))
  | _ => some (undefined false)

/-- The values that a loop over a value goes through. -/
def items? : Value → Option (List Value)
  | undefined silent => if silent then some [] else none
  | null => some []
  | string s => some (s.toList.map fun c => string (String.singleton c))
  | list items => some items
  | record entries => some (entries.map fun entry => string entry.1)
  | boolean _ => none
  | integer _ => none

/-- The number that a value amounts to in a comparison. -/
def asNumber? : Value → Option Int
  | boolean b => some (if b then 1 else 0)
  | integer n => some n
  | _ => none

mutual

/-- Whether two values are equal. -/
def same : Value → Value → Bool
  | undefined _, undefined _ => true
  | null, null => true
  | string s, string t => s == t
  | list xs, list ys => sameItems xs ys
  | record xs, record ys => sameEntries xs ys
  | v, w =>
    match v.asNumber?, w.asNumber? with
    | some a, some b => a == b
    | _, _ => false

/-- Whether two lists are equal item by item. -/
def sameItems : List Value → List Value → Bool
  | [], [] => true
  | v :: vs, w :: ws => same v w && sameItems vs ws
  | _, _ => false

/-- Whether two records are equal entry by entry. -/
def sameEntries : List (String × Value) → List (String × Value) → Bool
  | [], [] => true
  | (k, v) :: vs, (l, w) :: ws => k == l && same v w && sameEntries vs ws
  | _, _ => false

end

end Value

end Template
end GormForge
