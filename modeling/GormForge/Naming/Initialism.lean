import GormForge.Text.Case
import GormForge.Text.Search

/-!
# Initialisms

Abbreviations that Go code writes in capitals: `ApiKey` becomes `APIKey`.

**Algorithm.**  The initialisms of the table are raised one after the other.  Raising one
scans from left to right; a titled initialism counts when the text ends after it or a
capital (or an underscore) follows, and that following character is passed over too.
-/

namespace GormForge
namespace Naming

/-- The initialisms, in the order in which they are raised. -/
def commonInitialisms : List String := [
    "API", "ASCII", "CPU", "CSS", "DNS", "EOF", "GUID", "HTML", "HTTP", "HTTPS", "ID", "IP",
    "JSON", "LHS", "QPS", "RAM", "RHS", "RPC", "SLA", "SMTP", "SSH", "TLS", "TTL", "UID", "UI",
    "UUID", "URI", "URL", "UTF8", "VM", "XML", "XSRF", "XSS"
  ]

/-- The initialism as an ordinary titled word. -/
def titled (initialism : String) : List Char :=
  Text.upperFirstChars (initialism.toList.map Char.toLower)

/-- Whether a character begins the next word. -/
def beginsNextWord (c : Char) : Bool :=
  c.isUpper || c == '_'

/-- Raise one initialism in a text after skipping `skip` characters. -/
def raiseFrom (capitals word : List Char) : Nat → List Char → List Char
  | _, [] => []
  | skip + 1, _ :: cs => raiseFrom capitals word skip cs
  | 0, c :: cs =>
    match Text.afterPrefix? word (c :: cs) with
    | none => c :: raiseFrom capitals word 0 cs
    | some [] => capitals
    | some (next :: _) =>
      if beginsNextWord next then
        capitals ++ next :: raiseFrom capitals word word.length cs
      else
        c :: raiseFrom capitals word 0 cs

/-- Raise one initialism wherever it stands as a word. -/
def raise (cs : List Char) (initialism : String) : List Char :=
  raiseFrom initialism.toList (titled initialism) 0 cs

/-- Raise every common initialism. -/
def raiseInitialisms (cs : List Char) : List Char :=
  commonInitialisms.foldl raise cs

/-- Title the words of a name, join them and raise the initialisms. -/
def schemaName (name : String) : String :=
  let words := name.toList.splitOnP (fun c => c == '_' || c == ' ')
  String.ofList (raiseInitialisms (words.flatMap Text.upperFirstChars))

end Naming
end GormForge
