import GormForge.Proofs.Model.Indexes
import GormForge.Proofs.Text.Splitting
import GormForge.Schema.Literal
import GormForge.Schema.Postgres
import GormForge.Schema.Sqlite.Source

/-!
# Defaults that are string literals

What is read back from a default that a database reports as a string literal.

**Input.**  A SQLite column whose default is the literal of a text, or the default of a PostgreSQL
column that casts such a literal to a type.

**Algorithm.**  The cast is what follows the last `::`, which is the one in front of the type if the
name of the type neither has one of its own nor adds a colon to it.  Then the outer quotes are taken
off, and what stands between them is left as it is: the quotes of the text are still doubled.

**Results.**
* `Sql.doubled_eq_self_iff`: a text is the same with its quotes doubled exactly if it has none.
* `Sqlite.unquoted_literal`, `Postgres.normalizeDefault_literal`: a literal is read back as its text
  with the quotes doubled.
* `stringDefault_readBack_iff`: so the value of a default is read back exactly if it has no quote.
-/

namespace GormForge

/-! ## Literals -/

namespace Sql

variable {cs : List Char}

theorem length_doubleQuotes
    (cs : List Char) :
    (doubleQuotes cs).length = cs.length + cs.count '\'' := by
  induction cs with
  | nil => rfl
  | cons c cs ih =>
      rw [doubleQuotes]
      split
      · next hquote =>
          rw [hquote, List.count_cons_self]
          simp only [List.length_cons, ih]
          omega
      · next hother =>
          rw [List.count_cons_of_ne hother]
          simp only [List.length_cons, ih]
          omega

theorem doubleQuotes_eq_self_iff :
    doubleQuotes cs = cs ↔ '\'' ∉ cs := by
  constructor
  · intro h
    have hlength := length_doubleQuotes cs
    rw [h] at hlength
    exact List.count_eq_zero.mp (by omega)
  · intro h
    induction cs with
    | nil => rfl
    | cons c cs ih =>
        rw [List.mem_cons, not_or] at h
        rw [doubleQuotes, if_neg (Ne.symm h.1), ih h.2]

/-- A text with its quotes doubled. -/
def doubled (value : String) : String :=
  String.ofList (doubleQuotes value.toList)

theorem doubled_eq_self_iff
    {value : String} :
    doubled value = value ↔ '\'' ∉ value.toList := by
  rw [← doubleQuotes_eq_self_iff, ← String.toList_inj, doubled, String.toList_ofList]

theorem toList_literal
    (value : String) :
    (literal value).toList = ['\''] ++ (doubleQuotes value.toList ++ ['\'']) := by
  rw [literal, String.toList_ofList]
  rfl

theorem between?_literal
    (value : String) :
    Text.between? ['\''] ['\''] (literal value).toList = some (doubleQuotes value.toList) :=
  Text.between?_eq_some_iff.mpr (toList_literal value)

end Sql

/-! ## SQLite -/

namespace Sqlite

theorem unquoted_literal
    (value : String) :
    unquoted (Sql.literal value) = Sql.doubled value := by
  rw [unquoted, Sql.between?_literal]
  rfl

end Sqlite

/-! ## PostgreSQL -/

namespace Postgres

variable {front typeName : List Char}

/-- A cast is split off in front of the name of its type. -/
theorem splitLast?_cast
    (front : List Char)
    (hcast : ¬ [':', ':'] <:+: typeName)
    (hcolon : typeName.head? ≠ some ':') :
    Text.splitLast? [':', ':'] (front ++ ':' :: ':' :: typeName) = some (front, typeName) := by
  have hlater : Text.splitLast? [':', ':'] (':' :: typeName) = none := by
    refine Text.splitLast?_eq_none fun hin => ?_
    rcases List.infix_cons_iff.mp hin with ⟨rest, heq⟩ | hin
    · simp [← (List.cons.inj heq).2] at hcolon
    · exact hcast hin
  have hhere : Text.splitLast? [':', ':'] (':' :: ':' :: typeName) = some ([], typeName) := by
    rw [Text.splitLast?, hlater]
    simp [Text.afterPrefix?]
  simpa using Text.splitLast?_append hhere front

theorem withoutCast_cast
    (front : List Char)
    (hquote : '\'' ∉ typeName)
    (hcast : ¬ [':', ':'] <:+: typeName)
    (hcolon : typeName.head? ≠ some ':') :
    withoutCast (front ++ ':' :: ':' :: typeName) = front := by
  have hsplit : Text.splitLast? "::".toList (front ++ ':' :: ':' :: typeName) =
      some (front, typeName) := splitLast?_cast front hcast hcolon
  rw [withoutCast, hsplit]
  simp [hquote]

/-- A text that begins with a quote and is cast to a type loses the cast, and its outer quotes if it
has two. -/
theorem normalizeDefault_cast
    {front typeName : String}
    {rest : List Char}
    (hfront : front.toList = '\'' :: rest)
    (hquote : '\'' ∉ typeName.toList)
    (hcast : ¬ [':', ':'] <:+: typeName.toList)
    (hcolon : typeName.toList.head? ≠ some ':') :
    normalizeDefault (some (front ++ "::" ++ typeName)) =
      (some (String.ofList (withoutQuotes front.toList)), false) := by
  have hraw : (front ++ "::" ++ typeName).toList =
      front.toList ++ ':' :: ':' :: typeName.toList := by
    simp
  have hserial : Text.beginsWith "nextval(".toList (front ++ "::" ++ typeName).toList = false := by
    rw [hraw, hfront]
    rfl
  rw [normalizeDefault, hserial, hraw, withoutCast_cast _ hquote hcast hcolon]
  rfl

/-- A literal that is cast to a type is read back as its text with the quotes doubled. -/
theorem normalizeDefault_literal
    (value : String)
    {typeName : String}
    (hquote : '\'' ∉ typeName.toList)
    (hcast : ¬ [':', ':'] <:+: typeName.toList)
    (hcolon : typeName.toList.head? ≠ some ':') :
    normalizeDefault (some (Sql.literal value ++ "::" ++ typeName)) =
      (some (Sql.doubled value), false) := by
  rw [normalizeDefault_cast (Sql.toList_literal value) hquote hcast hcolon, withoutQuotes,
    Sql.between?_literal]
  rfl

/-- The colon of a type whose name begins with one stays behind the literal, which keeps its quotes.
-/
theorem normalizeDefault_of_colon
    (value : String)
    {typeName : String}
    (hquote : '\'' ∉ typeName.toList)
    (hcast : ¬ [':', ':'] <:+: typeName.toList)
    (hcolon : typeName.toList.head? = some ':') :
    normalizeDefault (some (Sql.literal value ++ "::" ++ typeName)) =
      (some (Sql.literal value ++ ":"), false) := by
  obtain ⟨rest, hrest⟩ := List.head?_eq_some_iff.mp hcolon
  rw [hrest] at hquote hcast
  have hraw : Sql.literal value ++ "::" ++ typeName =
      Sql.literal value ++ ":" ++ "::" ++ String.ofList rest := by
    rw [← String.toList_inj]
    simp [hrest]
  have hfront : (Sql.literal value ++ ":").toList =
      '\'' :: (Sql.doubleQuotes value.toList ++ ['\''] ++ [':']) := by
    rw [String.toList_append, Sql.toList_literal]
    simp
  have hkept : Text.between? ['\''] ['\''] (Sql.literal value ++ ":").toList = none := by
    rw [Option.eq_none_iff_forall_ne_some]
    intro inner hinner
    have hends := Text.between?_eq_some_iff.mp hinner
    rw [String.toList_append, ← List.append_assoc] at hends
    exact absurd (List.append_inj_right' hends rfl) (by decide)
  have hrestQuote : '\'' ∉ (String.ofList rest).toList := by
    rw [String.toList_ofList]
    exact fun hmem => hquote (List.mem_cons_of_mem _ hmem)
  have hrestCast : ¬ [':', ':'] <:+: (String.ofList rest).toList := by
    rw [String.toList_ofList]
    exact fun hin => hcast (hin.trans (List.suffix_cons _ _).isInfix)
  have hrestColon : (String.ofList rest).toList.head? ≠ some ':' := by
    rw [String.toList_ofList]
    intro hhead
    obtain ⟨more, rfl⟩ := List.head?_eq_some_iff.mp hhead
    exact hcast ⟨[], more, rfl⟩
  rw [hraw, normalizeDefault_cast hfront hrestQuote hrestCast hrestColon, withoutQuotes, hkept]
  simp

end Postgres

/-! ## Both -/

variable {schema : SchemaSource}
variable {table typeName : String}
variable {rows : List Sqlite.ColumnRow}

/-- A default that is the literal of a text is read back as the text with its quotes doubled, by
both databases, and so it is read back as the text itself exactly if that has no quote.  Behind a
cast, the name of the type must not begin with a colon, either; no such name is written without
quotes. -/
theorem stringDefault_readBack_iff
    (hcolumns : schema.columns table = .ok (Sqlite.columnsOfRows table rows))
    (withIndexes : Bool)
    (value : String)
    (hquote : '\'' ∉ typeName.toList)
    (hcast : ¬ [':', ':'] <:+: typeName.toList) :
    (∃ found, schema.introspect table withIndexes = .ok found ∧
      ∀ (place : Nat) row, rows[place]? = some row → row.default = some (Sql.literal value) →
        ∃ column, found.columns[place]? = some column ∧
          column.name = row.name ∧
          column.default = some (Sql.doubled value) ∧
          (column.default = some value ↔ '\'' ∉ value.toList)) ∧
    (typeName.toList.head? ≠ some ':' →
      Postgres.normalizeDefault (some (Sql.literal value ++ "::" ++ typeName)) =
        (some (Sql.doubled value), false)) ∧
    (Postgres.normalizeDefault (some (Sql.literal value ++ "::" ++ typeName)) =
        (some value, false) ↔
      '\'' ∉ value.toList ∧ typeName.toList.head? ≠ some ':') := by
  have hdefault : some (Sql.doubled value) = some value ↔ '\'' ∉ value.toList := by
    rw [Option.some.injEq, Sql.doubled_eq_self_iff]
  refine ⟨?_, fun hcolon => Postgres.normalizeDefault_literal value hquote hcast hcolon, ?_⟩
  · obtain ⟨found, hfound, hbare⟩ := SchemaSource.exists_introspect withIndexes hcolumns
    refine ⟨found, hfound, fun place row hrow hliteral => ?_⟩
    -- the column at a place, as far as it was read from the row at that place
    have hplace := congrArg (·[place]?) hbare
    rw [Sqlite.columnsOfRows, List.map_map] at hplace
    simp only [List.getElem?_map, hrow, Option.map_some] at hplace
    obtain ⟨column, hcolumn, hsame⟩ := Option.map_eq_some_iff.mp hplace
    have hname : column.name = row.name := congrArg Column.name hsame
    have hread : column.default = row.default.map Sqlite.unquoted := congrArg Column.default hsame
    rw [hliteral, Option.map_some, Sqlite.unquoted_literal] at hread
    exact ⟨column, hcolumn, hname, hread, by rw [hread, hdefault]⟩
  · by_cases hcolon : typeName.toList.head? = some ':'
    · rw [Postgres.normalizeDefault_of_colon value hquote hcast hcolon]
      refine iff_of_false (fun heq => ?_) fun h => h.2 hcolon
      have hread : Sql.literal value ++ ":" = value :=
        Option.some.inj (congrArg Prod.fst heq)
      have hlength := congrArg (fun text : String => text.toList.length) hread
      simp [Sql.toList_literal, Sql.length_doubleQuotes] at hlength
      omega
    · rw [Postgres.normalizeDefault_literal value hquote hcast hcolon, Prod.mk.injEq, hdefault]
      simp [hcolon]

/-- A table of notes whose columns have texts for defaults, the second one with a quote. -/
def notes : Sqlite.TableDefinition where
  name := "notes"
  columns := [
    { name := "place", declaredType := "TEXT", default := some "'a::b'" },
    { name := "body", declaredType := "TEXT", default := some "'it''s'" }]

/-- A default that looks like a cast is read back by both databases. -/
theorem place_readBack :
    '\'' ∉ "character varying".toList ∧ ¬ [':', ':'] <:+: "character varying".toList ∧
      (∃ found column, (Sqlite.source [notes]).introspect "notes" true = .ok found ∧
        found.columns[0]? = some column ∧ column.name = "place" ∧
          column.default = some "a::b") ∧
      Postgres.normalizeDefault (some "'a::b'::character varying") = (some "a::b", false) := by
  have hquote : '\'' ∉ "character varying".toList := by decide
  have hcast : ¬ [':', ':'] <:+: "character varying".toList := by decide
  have hcolumns : (Sqlite.source [notes]).columns "notes" =
      .ok (Sqlite.columnsOfRows "notes" (Sqlite.Catalog.columnRows [notes] "notes")) := rfl
  obtain ⟨⟨found, hfound, hplaces⟩, -, hiff⟩ :=
    stringDefault_readBack_iff hcolumns true "a::b" hquote hcast
  have hrow : (Sqlite.Catalog.columnRows [notes] "notes")[0]? =
      some ⟨"place", "TEXT", false, some (Sql.literal "a::b"), 0⟩ := by
    decide +kernel
  obtain ⟨column, hcolumn, hname, -, hread⟩ := hplaces 0 _ hrow rfl
  refine ⟨hquote, hcast, ⟨found, column, hfound, hcolumn, hname, hread.mpr (by decide)⟩, ?_⟩
  exact hiff.mpr ⟨by decide, by decide⟩

/-- A quote in a default is read back twice by both databases. -/
theorem body_not_readBack :
    (Sqlite.Catalog.columnRows [notes] "notes").map (·.default) =
        [some (Sql.literal "a::b"), some (Sql.literal "it's")] ∧
      (∃ found, (Sqlite.source [notes]).introspect "notes" true = .ok found ∧
        found.columns.map (·.default) = [some "a::b", some "it''s"]) ∧
      Postgres.normalizeDefault (some (Sql.literal "it's" ++ "::" ++ "text")) =
        (some "it''s", false) ∧
      "it''s" ≠ "it's" := by
  refine ⟨by decide +kernel, ⟨_, rfl, by decide +kernel⟩, by decide +kernel, by decide⟩

end GormForge
