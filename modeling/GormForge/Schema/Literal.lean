/-!
# SQL literals

How a text is written in SQL: between single quotes, with every single quote in it doubled.
-/

namespace GormForge
namespace Sql

/-- The characters of a text with every single quote doubled. -/
def doubleQuotes : List Char → List Char
  | [] => []
  | c :: cs => if c = '\'' then '\'' :: '\'' :: doubleQuotes cs else c :: doubleQuotes cs

/-- The literal of a text. -/
def literal (value : String) : String :=
  String.ofList ('\'' :: doubleQuotes value.toList ++ ['\''])

end Sql
end GormForge
