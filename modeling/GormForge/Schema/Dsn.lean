import GormForge.Schema.Error
import GormForge.Text.Blank
import GormForge.Text.Percent

/-!
# Data source names

Connection strings resolved to a dialect and a url.

**Input.**  A url with a known scheme, the form `user:pass@tcp(host)/db?params` that Go
programs use for MySQL, a `sqlite:` form, or the path of a SQLite file.

**Algorithm.**  The forms are tried in this order; a dialect given from outside overrides
the one that the string implies.

**Results.**  `Dsn.parse` and `Dsn.redacted`, the url with its password masked.
-/

namespace GormForge

/-- A data source name resolved to a connection url. -/
structure Dsn where
  dialect : Dialect
  url : String
  deriving Repr, DecidableEq

namespace Dsn

/-- The text before the first character `stop`, all of it if there is none. -/
def before (stop : Char) (cs : List Char) : List Char :=
  cs.takeWhile (· != stop)

/-! ## The form of Go programs -/

/-- The parts of `[credentials@]address/database[?params]`: the text before the slash that
precedes the database, and the database. -/
def splitDatabase? (cs : List Char) : Option (List Char × List Char) :=
  let parts : Option (List Char × List Char) :=
    match Text.splitFirst? ")/".toList cs with
    | some (front, rest) => some (front ++ [')'], rest)
    | none =>
      match Text.splitLast? ['@'] cs with
      | some (credentials, rest) =>
          (Text.splitFirst? ['/'] rest).map fun found =>
            (credentials ++ '@' :: found.1, found.2)
      | none => Text.splitFirst? ['/'] cs
  parts.map fun found => (found.1, before '?' found.2)

/-- The credentials and the address of `[credentials@]address`. -/
def splitCredentials (cs : List Char) : Option (List Char) × List Char :=
  match Text.splitLast? ['@'] cs with
  | some (credentials, address) => (some credentials, address)
  | none => (none, cs)

/-- The host of an address `tcp(host)`; an empty address means the local server. -/
def hostOfAddress? (address : List Char) : Option (List Char) :=
  if address = [] then
    some "localhost:3306".toList
  else
    (Text.afterPrefix? "tcp(".toList address).bind (Text.beforeSuffix? [')'])

/-- The user information of a url, percent-encoded. -/
def userInfo : Option (List Char) → List Char
  | none => []
  | some credentials =>
    match Text.splitFirst? [':'] credentials with
    | some (user, password) =>
        Text.percentEncode user ++ ':' :: Text.percentEncode password ++ ['@']
    | none => Text.percentEncode credentials ++ ['@']

/-- The MySQL url of `[user[:pass]@][tcp(host)]/db[?params]`. -/
def mysqlUrl? (cs : List Char) : Option (List Char) :=
  match splitDatabase? cs with
  | none => none
  | some (head, database) =>
    let (credentials, address) := splitCredentials head
    match hostOfAddress? address with
    | none => none
    | some host =>
      if credentials.isNone && address.isEmpty then
        none
      else
        some ("mysql://".toList ++ userInfo credentials ++ host ++ '/' :: database)

/-! ## All forms -/

/-- The url of a `scheme://` string, spelled the way its driver expects. -/
def urlOfScheme (detected : Dialect) (raw scheme rest : List Char) : List Char :=
  if detected = .mysql ∧ scheme ≠ "mysql".toList then
    "mysql://".toList ++ rest
  else
    raw

/-- The endings of the file names that are taken for a SQLite database. -/
def fileEndings : List String := [".db", ".sqlite", ".sqlite3"]

/-- Resolve a string without blanks around it. -/
def parseTrimmed (raw : List Char) (dialect : Option Dialect) : Except SchemaError Dsn :=
  if raw = [] then
    .error .emptyDsn
  else
    match Text.splitFirst? "://".toList raw with
    | some (scheme, rest) =>
      match Dialect.ofScheme? (String.ofList scheme) with
      | none => .error (.unsupportedDsn (String.ofList scheme))
      | some detected =>
          .ok ⟨dialect.getD detected, String.ofList (urlOfScheme detected raw scheme rest)⟩
    | none =>
      match mysqlUrl? raw with
      | some url => .ok ⟨dialect.getD .mysql, String.ofList url⟩
      | none =>
        if Text.beginsWith "sqlite:".toList raw then
          .ok ⟨dialect.getD .sqlite, String.ofList raw⟩
        else
          let looksLikeFile := fileEndings.any fun ending => Text.endsWith ending.toList raw
          if dialect = some .sqlite ∨ (dialect = none ∧ looksLikeFile) then
            .ok ⟨.sqlite, String.ofList ("sqlite:".toList ++ raw)⟩
          else
            .error (.unsupportedDsn "unknown")

/-- Resolve a connection string. -/
def parse (raw : String) (dialect : Option Dialect) : Except SchemaError Dsn :=
  parseTrimmed (Text.trimChars raw.toList) dialect

/-! ## Masking -/

/-- Mask the password of the text between the scheme and the end of a url. -/
def maskAuthority (rest : List Char) : List Char :=
  match Text.splitLast? ['@'] rest with
  | none => rest
  | some (credentials, host) =>
    match Text.splitFirst? [':'] credentials with
    | some (user, _) => user ++ ":***@".toList ++ host
    | none => rest

/-- The url with any password masked. -/
def redacted (dsn : Dsn) : String :=
  match Text.splitFirst? "://".toList dsn.url.toList with
  | none => dsn.url
  | some (scheme, rest) => String.ofList (scheme ++ "://".toList ++ maskAuthority rest)

end Dsn
end GormForge
