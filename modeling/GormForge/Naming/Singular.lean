import GormForge.Text.Case
import GormForge.Text.Search
import GormForge.Text.Utf8

/-!
# Singular names

The singular form of the last word of a schema name: `user_roles` becomes `user_role`.

**Algorithm.**  Words without a plural stay, irregular plurals come from a table, and the
other words lose or change an ending, the first rule that applies winning.  The endings
are compared in lower case and cut off the word as it stands.
-/

namespace GormForge
namespace Naming

/-- Words that have no plural. -/
def uncountable : List String := [
    "data", "equipment", "fish", "information", "metadata", "money", "news", "rice",
    "series", "sheep", "species"
  ]

/-- Plurals that follow no rule. -/
def irregular : List (String × String) := [
    ("children", "child"), ("feet", "foot"), ("geese", "goose"), ("men", "man"),
    ("mice", "mouse"), ("people", "person"), ("teeth", "tooth"), ("women", "woman")
  ]

/-- Endings that lose their last two letters. -/
def longEndings : List String := ["sses", "shes", "ches", "xes", "uses"]

/-- Endings that only look like a plural. -/
def keptEndings : List String := ["ss", "us", "is"]

/-- Whether a text ends with a given ending. -/
def hasEnding (word : List Char) (ending : String) : Bool :=
  Text.endsWith ending.toList word

/-- A text without its last `n` characters. -/
def dropEnd (n : Nat) (cs : List Char) : List Char :=
  cs.take (cs.length - n)

/-- The singular of one word, given with its lower-case form. -/
def singularWord (word lowered : List Char) : List Char :=
  if lowered = [] || uncountable.contains (String.ofList lowered) then
    word
  else
    match irregular.lookup (String.ofList lowered) with
    | some singular => singular.toList
    | none =>
      if Text.byteLength lowered > 3 && hasEnding lowered "ies" then
        dropEnd 3 word ++ ['y']
      else if longEndings.any (hasEnding lowered) then
        dropEnd 2 word
      else if keptEndings.any (hasEnding lowered) then
        word
      else if hasEnding lowered "s" then
        dropEnd 1 word
      else
        word

/-- The part of a name up to its last underscore, and the word after it. -/
def splitLastWord (cs : List Char) : List Char × List Char :=
  match Text.splitLast? ['_'] cs with
  | some (front, word) => (front ++ ['_'], word)
  | none => ([], cs)

/-- The singular form of the last word of a name. -/
def singularize (name : String) : String :=
  let (head, word) := splitLastWord name.toList
  String.ofList (head ++ singularWord word (Text.lower (String.ofList word)).toList)

end Naming
end GormForge
