import GormForge.Proofs.Schema.Redaction

/-!
# Urls for drivers

Which data source names are resolved to a url that begins the way its driver expects.

**Input.**  A name that is resolved without a dialect from outside: a url with one of the six
known schemes in any case of letters, a name of the form of Go programs, a `sqlite:` form or the
path of a file.

**Algorithm.**  All schemes for MySQL are written `mysql`.  The scheme of another url stays as it
was spelled, whether its driver knows the spelling or not; the forms without `://` get a scheme
or have it already.

**Results.**
* `exists_url`: the url of each form.
* `suitsDriver_iff`: the url begins the way its driver expects unless the scheme of a name for
  PostgreSQL or SQLite is spelled differently; what follows a scheme is kept.
-/

namespace GormForge

/-- How the urls begin that the driver of a dialect takes. -/
def Dialect.urlLeads : Dialect → List String
  | mysql => ["mysql://"]
  | postgres => ["postgres://", "postgresql://"]
  | sqlite => ["sqlite:"]

/-- The schemes of the urls that need no change for their drivers. -/
def Dialect.keptSchemes : List String :=
  ["postgres", "postgresql", "sqlite"]

namespace Dsn

variable {raw scheme rest url : List Char}
variable {dsn : Dsn}

/-- The url begins the way the driver of its dialect expects. -/
def SuitsDriver (dsn : Dsn) : Prop :=
  ∃ lead ∈ dsn.dialect.urlLeads, lead.toList <+: dsn.url.toList

instance (dsn : Dsn) : Decidable dsn.SuitsDriver :=
  inferInstanceAs (Decidable (∃ lead ∈ dsn.dialect.urlLeads, lead.toList <+: dsn.url.toList))

/-! ## The urls of the forms -/

theorem prefix_of_mysqlUrl?
    (h : mysqlUrl? raw = some url) :
    "mysql://".toList <+: url := by
  unfold mysqlUrl? at h
  split at h
  · cases h
  · simp only at h
    split at h
    · cases h
    · split at h
      · cases h
      · cases h
        simp only [List.append_assoc]
        exact List.prefix_append _ _

/-- A name is a url with a known scheme, whose rest is kept, or it has no `://` and its url begins
the way its driver expects. -/
theorem exists_url
    (h : parseTrimmed raw none = .ok dsn) :
    (∃ scheme rest,
      Text.splitFirst? "://".toList raw = some (scheme, rest) ∧
        Dialect.ofScheme? (String.ofList scheme) = some dsn.dialect ∧
        dsn.url.toList = spelling dsn.dialect scheme ++ "://".toList ++ rest) ∨
    (¬ "://".toList <:+: raw ∧ dsn.SuitsDriver) := by
  rcases parseTrimmed_none_cases h with ⟨scheme, rest, hsplit, hdialect, hurl⟩ |
    ⟨hclear, ⟨found, hfound, rfl⟩ | ⟨hsqlite, rest, hrest⟩⟩
  · refine Or.inl ⟨scheme, rest, hsplit, hdialect, ?_⟩
    rw [hurl, String.toList_ofList, Text.eq_of_splitFirst? hsplit, urlOfScheme_eq]
  · refine Or.inr ⟨hclear, "mysql://", by simp [Dialect.urlLeads], ?_⟩
    rw [String.toList_ofList (l := found)]
    exact prefix_of_mysqlUrl? hfound
  · refine Or.inr ⟨hclear, "sqlite:", by simp [Dialect.urlLeads, hsqlite], ?_⟩
    rw [hrest, String.toList_ofList (l := "sqlite:".toList ++ rest)]
    exact List.prefix_append _ _

/-! ## Spellings -/

/-- A url begins with a scheme only if that is its scheme. -/
theorem scheme_eq_of_begins
    (name : String)
    (slashes : List Char)
    (hname : ':' ∉ name.toList)
    (hscheme : ':' ∉ scheme)
    (h : name.toList ++ ':' :: slashes <+: scheme ++ "://".toList ++ rest) :
    String.ofList scheme = name := by
  obtain ⟨more, hmore⟩ := h
  have hcolon : name.toList ++ ':' :: (slashes ++ more) =
      scheme ++ ':' :: ("//".toList ++ rest) := by
    simpa using hmore
  rw [← (Text.append_stop_inj hname hscheme hcolon).1, String.ofList_toList]

/-- A url whose scheme is left as it was spelled suits its driver if the driver knows the
spelling. -/
theorem suitsDriver_iff_of_kept
    (hdialect : Dialect.ofScheme? (String.ofList scheme) = some dsn.dialect)
    (hmysql : dsn.dialect ≠ .mysql)
    (hurl : dsn.url.toList = scheme ++ "://".toList ++ rest) :
    dsn.SuitsDriver ↔ String.ofList scheme ∈ Dialect.keptSchemes := by
  have hcolon : ':' ∉ scheme := notMem_of_ofScheme? hdialect (by decide)
  rw [SuitsDriver, hurl]
  constructor
  · rintro ⟨lead, hlead, hprefix⟩
    cases hd : dsn.dialect with
    | mysql => exact absurd hd hmysql
    | postgres =>
        rw [hd] at hlead
        rcases List.mem_pair.mp hlead with rfl | rfl
        · rw [scheme_eq_of_begins "postgres" "//".toList (by decide) hcolon hprefix]
          decide
        · rw [scheme_eq_of_begins "postgresql" "//".toList (by decide) hcolon hprefix]
          decide
    | sqlite =>
        rw [hd] at hlead
        obtain rfl := List.mem_singleton.mp hlead
        rw [scheme_eq_of_begins "sqlite" [] (by decide) hcolon hprefix]
        decide
  · intro hkept
    have hspelled : scheme = (String.ofList scheme).toList := String.toList_ofList.symm
    simp only [Dialect.keptSchemes, List.mem_cons, List.not_mem_nil, or_false] at hkept
    rcases hkept with heq | heq | heq <;> rw [heq] at hdialect hspelled <;>
      obtain hd := Option.some.inj hdialect <;> rw [← hd, hspelled]
    · exact ⟨"postgres://", by decide, List.prefix_append _ _⟩
    · exact ⟨"postgresql://", by decide, List.prefix_append _ _⟩
    · exact ⟨"sqlite:", by decide, _, rfl⟩

/-! ## All names -/

/-- A name that is resolved has a url that suits its driver, unless it has a scheme for PostgreSQL
or SQLite that is spelled differently.  What follows a scheme is kept. -/
theorem suitsDriver_iff
    {raw : String}
    (h : parse raw none = .ok dsn) :
    (dsn.SuitsDriver ↔
      ∀ scheme rest : List Char,
        Text.trimChars raw.toList = scheme ++ "://".toList ++ rest → '/' ∉ scheme →
          dsn.dialect = .mysql ∨ String.ofList scheme ∈ Dialect.keptSchemes) ∧
    ∀ scheme rest : List Char,
      Text.trimChars raw.toList = scheme ++ "://".toList ++ rest → '/' ∉ scheme →
        dsn.url.toList = spelling dsn.dialect scheme ++ "://".toList ++ rest := by
  have hread : ∀ {scheme rest : List Char},
      Text.trimChars raw.toList = scheme ++ "://".toList ++ rest → '/' ∉ scheme →
        Text.splitFirst? "://".toList (Text.trimChars raw.toList) = some (scheme, rest) := by
    intro scheme rest hraw hslash
    rw [hraw]
    exact Text.splitFirst?_of_notInfix (not_isInfix_scheme hslash) rest
  rcases exists_url h with ⟨scheme, rest, hsplit, hdialect, hurl⟩ | ⟨hclear, hsuits⟩
  · have hsame : ∀ {other more : List Char},
        Text.trimChars raw.toList = other ++ "://".toList ++ more → '/' ∉ other →
          other = scheme ∧ more = rest := by
      intro other more hraw hslash
      have heq := (hread hraw hslash).symm.trans hsplit
      simpa using heq
    refine ⟨⟨fun hsuits other more hraw hslash => ?_, fun hkept => ?_⟩,
      fun other more hraw hslash => ?_⟩
    · obtain ⟨rfl, rfl⟩ := hsame hraw hslash
      by_cases hmysql : dsn.dialect = .mysql
      · exact Or.inl hmysql
      · rw [spelling, if_neg hmysql] at hurl
        exact Or.inr ((suitsDriver_iff_of_kept hdialect hmysql hurl).mp hsuits)
    · by_cases hmysql : dsn.dialect = .mysql
      · refine ⟨"mysql://", by simp [Dialect.urlLeads, hmysql], rest, ?_⟩
        rw [hurl, spelling, if_pos hmysql]
        rfl
      · have hknown := (hkept scheme rest (Text.eq_of_splitFirst? hsplit)
          (noSlash_of_ofScheme? hdialect)).resolve_left hmysql
        rw [spelling, if_neg hmysql] at hurl
        exact (suitsDriver_iff_of_kept hdialect hmysql hurl).mpr hknown
    · obtain ⟨rfl, rfl⟩ := hsame hraw hslash
      exact hurl
  · -- without `://` there is no scheme to look at
    have hnone : ∀ {scheme rest : List Char},
        Text.trimChars raw.toList ≠ scheme ++ "://".toList ++ rest :=
      fun hraw => hclear ⟨_, _, hraw.symm⟩
    exact ⟨⟨fun _ _ _ hraw _ => absurd hraw hnone, fun _ => hsuits⟩,
      fun _ _ hraw _ => absurd hraw hnone⟩

/-- A scheme for MySQL in capitals is written the way the driver expects, and the rest is kept. -/
theorem mariaDb_suitsDriver :
    ∃ dsn,
      parse "MariaDB://app@db/shop" none = .ok dsn ∧
        Text.trimChars "MariaDB://app@db/shop".toList =
          "MariaDB".toList ++ "://".toList ++ "app@db/shop".toList ∧
        '/' ∉ "MariaDB".toList ∧
        dsn.SuitsDriver ∧
        dsn.url.toList = spelling dsn.dialect "MariaDB".toList ++ "://".toList ++
          "app@db/shop".toList := by
  have hparse : parse "MariaDB://app@db/shop" none = .ok ⟨.mysql, "mysql://app@db/shop"⟩ := by
    rfl
  have htrim : Text.trimChars "MariaDB://app@db/shop".toList =
      "MariaDB".toList ++ "://".toList ++ "app@db/shop".toList := by
    decide
  have hslash : '/' ∉ "MariaDB".toList := by decide
  obtain ⟨hsuits, hkeeps⟩ := suitsDriver_iff hparse
  exact ⟨_, hparse, htrim, hslash, hsuits.mpr fun _ _ _ _ => Or.inl rfl,
    hkeeps _ _ htrim hslash⟩

/-- The scheme `sqlite3`, and a scheme for PostgreSQL with a capital, are left as they are. -/
theorem sqlite3_unsuited :
    (∃ dsn,
      parse "sqlite3://shop.db" none = .ok dsn ∧
        dsn.url = "sqlite3://shop.db" ∧ dsn.dialect = .sqlite ∧ ¬ dsn.SuitsDriver) ∧
    ∃ dsn,
      parse "Postgres://app@db/shop" none = .ok dsn ∧
        dsn.url = "Postgres://app@db/shop" ∧ dsn.dialect = .postgres ∧ ¬ dsn.SuitsDriver :=
  ⟨⟨⟨.sqlite, "sqlite3://shop.db"⟩, by rfl, rfl, rfl, by decide⟩,
    ⟨.postgres, "Postgres://app@db/shop"⟩, by rfl, rfl, rfl, by decide⟩

end Dsn
end GormForge
