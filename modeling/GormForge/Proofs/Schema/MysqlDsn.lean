import GormForge.Proofs.Text.Percent
import GormForge.Schema.Dsn

/-!
# Data source names for MySQL

Which names of the form `user:password@tcp(host)/database?params` are resolved to a url that
holds their user and password.

**Input.**  The parts of such a name.  The user holds no colon, the host no parenthesis, slash or
at sign, and the database no question mark; password and parameters are any texts.

**Algorithm.**  A scheme is looked for first, then the first `)/` ends the address.  Where either
stands in a part that is free text, the name is taken apart in the wrong place.

**Results.**
* `mysqlUrl?_of_closing`: a name whose first `)/` closes the address is taken apart there.
* `not_spells_of_scheme`, `not_spells_of_early`: a name that is not comes to a different url.
* `MysqlDsn.roundTrips_iff`: a name keeps user and password exactly if it has no `://` at all and
  no `)/` in its credentials.
-/

namespace GormForge

/-! ## Parts -/

/-- The parts of a data source name. -/
structure MysqlDsn where
  user : String
  password : String
  host : String
  database : String
  params : String
  deriving Repr, DecidableEq

namespace MysqlDsn

/-- Parts that are told apart by their delimiters. -/
structure Proper (dsn : MysqlDsn) : Prop where
  user_ne : dsn.user ≠ ""
  user_colon : ':' ∉ dsn.user.toList
  user_trim : Text.trim dsn.user = dsn.user
  host_ne : dsn.host ≠ ""
  host_paren : ')' ∉ dsn.host.toList
  host_slash : '/' ∉ dsn.host.toList
  host_at : '@' ∉ dsn.host.toList
  database_question : '?' ∉ dsn.database.toList

/-- User and password. -/
def credentials (dsn : MysqlDsn) : String :=
  dsn.user ++ ":" ++ dsn.password

/-- The whole name. -/
def text (dsn : MysqlDsn) : String :=
  dsn.credentials ++ "@tcp(" ++ dsn.host ++ ")/" ++ dsn.database ++ "?" ++ dsn.params

end MysqlDsn

namespace Dsn

variable {user password host database params : List Char}
variable {raw scheme rest front url : List Char}

/-! ## Names as lists of characters -/

/-- What stands behind the scheme of a url. -/
def authority (user password host database : List Char) : List Char :=
  user ++ ':' :: (password ++ '@' :: (host ++ '/' :: database))

/-- What stands behind the credentials of a name. -/
def behind (host database params : List Char) : List Char :=
  '@' :: ("tcp(".toList ++ host ++ ')' :: '/' :: (database ++ '?' :: params))

/-- The url behind the scheme holds the user and the password. -/
def Spells (url user password host database : List Char) : Prop :=
  ∃ u p,
    url = authority u p host database ∧
      Text.percentDecode u = Text.utf8 user ∧ Text.percentDecode p = Text.utf8 password

/-! ## Names that are taken apart where they were put together -/

/-- The address of a host. -/
def addressOf (host : List Char) : List Char :=
  "tcp(".toList ++ host ++ [')']

theorem hostOfAddress?_addressOf
    (host : List Char) :
    hostOfAddress? (addressOf host) = some host := by
  have hopened : Text.afterPrefix? "tcp(".toList (addressOf host) = some (host ++ [')']) := by
    rw [Text.afterPrefix?_eq_some_iff, addressOf, List.append_assoc]
  rw [hostOfAddress?, if_neg (by simp [addressOf]), hopened]
  exact Text.beforeSuffix?_eq_some_iff.mpr rfl

theorem userInfo_of_colon
    (password : List Char)
    (huser : ':' ∉ user) :
    userInfo (some (user ++ ':' :: password)) =
      Text.percentEncode user ++ ':' :: Text.percentEncode password ++ ['@'] := by
  rw [userInfo, Text.splitFirst?_of_notMem huser]

/-- A name whose first `)/` closes the address is taken apart there. -/
theorem mysqlUrl?_of_closing
    (database : List Char)
    (huser : ':' ∉ user)
    (hat : '@' ∉ host)
    (hclosing : ¬ ")/".toList <:+: user ++ ':' :: (password ++ '@' :: addressOf host)) :
    mysqlUrl? (user ++ ':' :: (password ++ '@' :: (addressOf host ++ '/' :: database))) =
      some ("mysql://".toList ++ authority (Text.percentEncode user) (Text.percentEncode password)
        host (before '?' database)) := by
  have hname : user ++ ':' :: (password ++ '@' :: (addressOf host ++ '/' :: database)) =
      (user ++ ':' :: password ++ '@' :: ("tcp(".toList ++ host)) ++ ")/".toList ++ database := by
    simp [addressOf]
  have hfirst : ¬ ")/".toList <:+:
      (user ++ ':' :: password ++ '@' :: ("tcp(".toList ++ host)) ++ ")/".toList.dropLast := by
    simpa [addressOf] using hclosing
  have hdivided :
      splitDatabase? (user ++ ':' :: (password ++ '@' :: (addressOf host ++ '/' :: database))) =
        some (user ++ ':' :: password ++ '@' :: addressOf host, before '?' database) := by
    rw [splitDatabase?, hname, Text.splitFirst?_of_notInfix hfirst]
    simp [addressOf]
  have hcredentials : splitCredentials (user ++ ':' :: password ++ '@' :: addressOf host) =
      (some (user ++ ':' :: password), addressOf host) := by
    rw [splitCredentials, Text.splitLast?_of_notMem]
    simp [addressOf, hat]
  simp only [mysqlUrl?, hdivided, hcredentials, hostOfAddress?_addressOf,
    userInfo_of_colon password huser]
  simp [authority]

/-- A name without a misleading `)/` is taken apart where it was put together. -/
theorem mysqlUrl?_of_clear
    (params : List Char)
    (huser : ':' ∉ user)
    (hslash : '/' ∉ host)
    (hat : '@' ∉ host)
    (hdatabase : '?' ∉ database)
    (hclear : ¬ ")/".toList <:+: user ++ ':' :: password) :
    mysqlUrl? (user ++ ':' :: password ++ behind host database params) =
      some ("mysql://".toList ++
        authority (Text.percentEncode user) (Text.percentEncode password) host database) := by
  have hname : user ++ ':' :: password ++ behind host database params =
      user ++ ':' :: (password ++ '@' :: (addressOf host ++ '/' :: (database ++ '?' :: params))) := by
    simp [behind, addressOf]
  have hclosing : ¬ ")/".toList <:+: user ++ ':' :: (password ++ '@' :: addressOf host) := by
    have hslash' : '/' ∉ '@' :: addressOf host := by
      simp [addressOf, hslash]
    intro hin
    rw [← List.cons_append, ← List.append_assoc] at hin
    exact hclear (Text.isInfix_of_append [')'] hslash' hin)
  have hbefore : before '?' (database ++ '?' :: params) = database := by
    rw [before, Text.takeWhile_append_stop, Text.takeWhile_of_notMem hdatabase]
  rw [hname, mysqlUrl?_of_closing (database ++ '?' :: params) huser hat hclosing, hbefore]

/-! ## Schemes -/

/-- Schemes are made of letters and digits. -/
theorem isAlphanum_of_ofScheme?
    {scheme : String}
    {dialect : Dialect}
    (h : Dialect.ofScheme? scheme = some dialect) :
    ∀ c ∈ scheme.toList, c.toLower.isAlphanum = true := by
  have hknown : Text.asciiLower scheme ∈
      ["mysql", "mariadb", "postgres", "postgresql", "sqlite", "sqlite3"] := by
    unfold Dialect.ofScheme? at h
    split at h <;> simp_all
  have hnames : ∀ name ∈ ["mysql", "mariadb", "postgres", "postgresql", "sqlite", "sqlite3"],
      name.toList.all Char.isAlphanum = true := by
    decide
  intro c hc
  refine List.all_eq_true.mp (hnames _ hknown) c.toLower ?_
  rw [Text.asciiLower, String.toList_ofList]
  exact List.mem_map_of_mem hc

/-- A scheme holds no other character. -/
theorem notMem_of_ofScheme?
    {dialect : Dialect}
    {c : Char}
    (h : Dialect.ofScheme? (String.ofList scheme) = some dialect)
    (hc : c.toLower.isAlphanum = false) :
    c ∉ scheme := by
  intro hmem
  have hletter := isAlphanum_of_ofScheme? h c (by rwa [String.toList_ofList])
  rw [hc] at hletter
  cases hletter

/-- A name in which a scheme is found comes to a different url. -/
theorem not_spells_of_scheme
    (huser : ':' ∉ user)
    (hcolon : ':' ∉ scheme)
    (hat : '@' ∉ scheme)
    (h : user ++ ':' :: password ++ behind host database params = scheme ++ "://".toList ++ rest) :
    ¬ Spells rest user password host database := by
  rintro ⟨u, p, rfl, hu, hp⟩
  have hname : user ++ ':' :: (password ++ behind host database params) =
      scheme ++ ':' :: ("//".toList ++ authority u p host database) := by
    simpa using h
  obtain ⟨rfl, hrest⟩ := Text.append_stop_inj huser hcolon hname
  -- the password begins with the two slashes
  obtain ⟨more, rfl⟩ : ∃ more, password = "//".toList ++ more := by
    rcases password with _ | ⟨first, _ | ⟨second, more⟩⟩
    · simp [behind] at hrest
    · simp [behind] at hrest
    · simp only [List.cons_append, String.reduceToList, List.cons.injEq] at hrest
      exact ⟨more, by simp [hrest.1, hrest.2.1]⟩
  have hmore : more ++ behind host database params = authority u p host database :=
    (List.append_right_inj "//".toList).mp (by rwa [List.append_assoc] at hrest)
  -- up to the first at sign
  have hu' : '@' ∉ u := Text.isDelimiter_at.notMem_of_percentDecode hu hat
  have hfront : more.takeWhile (· != '@') = u ++ ':' :: p.takeWhile (· != '@') := by
    have heq := congrArg (List.takeWhile (· != '@')) hmore
    rw [behind, authority, Text.takeWhile_append_stop, Text.takeWhile_append_of_notMem hu'] at heq
    simpa using heq
  have hshrink := Text.isDelimiter_at.byteLength_takeWhile_le hp
  rw [Text.takeWhile_append_of_notMem (by decide)] at hshrink
  have hlength := congrArg Text.byteLength hfront
  have hslashes : Text.byteLength "//".toList = 2 := by rfl
  simp only [Text.byteLength_append, Text.byteLength] at hshrink hlength
  omega

/-! ## An early `)/` -/

/-- The credentials and the at sign behind them, if there are any. -/
def entry (credentials : Option (List Char)) : List Char :=
  (credentials.map (· ++ ['@'])).getD []

/-- Credentials and address make up what stands before the database. -/
theorem eq_of_splitCredentials
    (cs : List Char) :
    cs = entry (splitCredentials cs).1 ++ (splitCredentials cs).2 := by
  unfold splitCredentials
  split
  · next hsplit => simpa [entry] using Text.eq_of_splitLast? hsplit
  · rfl

theorem eq_of_hostOfAddress?
    {address : List Char}
    (hne : address ≠ [])
    (h : hostOfAddress? address = some host) :
    address = "tcp(".toList ++ (host ++ [')']) := by
  rw [hostOfAddress?, if_neg hne] at h
  exact Text.between?_eq_some_iff.mp h

/-- A name that is taken apart at a `)/`. -/
theorem exists_of_mysqlUrl?
    (hfirst : Text.splitFirst? ")/".toList raw = some (front, rest))
    (h : mysqlUrl? raw = some url) :
    ∃ credentials host,
      front = entry credentials ++ ("tcp(".toList ++ host) ∧
        url = "mysql://".toList ++ (userInfo credentials ++ (host ++ '/' :: before '?' rest)) := by
  have hdivided : splitDatabase? raw = some (front ++ [')'], before '?' rest) := by
    rw [splitDatabase?, hfirst]
    rfl
  have hparts := eq_of_splitCredentials (front ++ [')'])
  obtain ⟨⟨credentials, address⟩, hsplit⟩ : ∃ parts, splitCredentials (front ++ [')']) = parts :=
    ⟨_, rfl⟩
  have hne : address ≠ [] := by
    rintro rfl
    -- the text would end with an at sign
    rw [hsplit, List.append_nil] at hparts
    have hlast := congrArg List.getLast? hparts
    cases credentials with
    | none => simp [entry] at hlast
    | some credentials => simp [entry] at hlast
  simp only [mysqlUrl?, hdivided, hsplit] at h
  split at h
  · cases h
  · next host hhost =>
      split at h
      · cases h
      · cases h
        rw [hsplit, eq_of_hostOfAddress? hne hhost, ← List.append_assoc,
          ← List.append_assoc] at hparts
        refine ⟨credentials, host, ?_, by simp⟩
        rw [List.append_cancel_right hparts, List.append_assoc]

/-- Without a colon before the address, not enough is taken for the user. -/
theorem not_spells_of_entry
    {first second left more database' : List Char}
    (huser : ':' ∉ user)
    (hleft : ':' ∉ left)
    (hsecond : ':' ∉ second)
    (hread : ∀ cs, Text.percentDecode (second ++ cs) = Text.utf8 left ++ Text.percentDecode cs)
    (hname : left ++ ("tcp(".toList ++ (first ++ ")/".toList ++ rest)) = user ++ ':' :: more)
    (hdatabase : database' <+: rest) :
    ¬ Spells (second ++ (first ++ '/' :: database')) user password host database := by
  rintro ⟨u, p, heq, hu, -⟩
  have hu' : ':' ∉ u := Text.isDelimiter_colon.notMem_of_percentDecode hu huser
  -- the user of the name and that of the url, up to their first colons
  have huserEq : left ++ ("tcp(".toList ++ (first ++ ")/".toList ++ rest).takeWhile (· != ':')) =
      user := by
    have hfront := congrArg (List.takeWhile (· != ':')) hname
    rwa [Text.takeWhile_append_of_notMem hleft, Text.takeWhile_append_of_notMem (by decide),
      Text.takeWhile_append_stop, Text.takeWhile_of_notMem huser] at hfront
  have huEq : second ++ (first ++ '/' :: database').takeWhile (· != ':') = u := by
    have hfront := congrArg (List.takeWhile (· != ':')) heq
    rwa [Text.takeWhile_append_of_notMem hsecond, authority, Text.takeWhile_append_stop,
      Text.takeWhile_of_notMem hu'] at hfront
  have hdecoded : Text.percentDecode ((first ++ '/' :: database').takeWhile (· != ':')) =
      Text.utf8 ("tcp(".toList ++ (first ++ ")/".toList ++ rest).takeWhile (· != ':')) := by
    rw [← huEq, ← huserEq, hread, Text.utf8_append] at hu
    exact List.append_cancel_left hu
  have hshort : Text.byteLength ((first ++ '/' :: database').takeWhile (· != ':')) ≤
      Text.byteLength ((first ++ ")/".toList ++ rest).takeWhile (· != ':')) := by
    by_cases hfirst : ':' ∈ first
    · obtain ⟨front, back, rfl⟩ := List.append_of_mem hfirst
      simp
    · have hmono := Text.byteLength_takeWhile_le ':' hdatabase
      rw [List.append_assoc, Text.takeWhile_append_of_notMem hfirst,
        Text.takeWhile_append_of_notMem hfirst, Text.takeWhile_append_of_notMem (by decide),
        List.takeWhile_cons_of_pos (by decide)]
      have hslash : Text.byteLength ")/".toList = '/'.utf8Size + 1 := by rfl
      simp only [Text.byteLength_append, Text.byteLength]
      omega
  have hread' := Text.length_percentDecode_le ((first ++ '/' :: database').takeWhile (· != ':'))
  have htcp : Text.byteLength "tcp(".toList = 4 := by rfl
  rw [hdecoded, Text.length_utf8, Text.byteLength_append] at hread'
  omega

/-- What stands behind an early `)/` cannot come to the end of the password, the host and the
database. -/
theorem ne_of_early
    {first back more : List Char}
    (hparen : ')' ∉ host)
    (hhost : host ≠ [])
    (hquestion : '?' ∉ database)
    (hdecoded : Text.percentDecode back =
      Text.utf8 ("tcp(".toList ++ (first ++ ")/".toList ++ more))) :
    first ++ '/' :: before '?' (more ++ behind host database params) ≠
      back ++ '@' :: (host ++ '/' :: database) := by
  intro heq
  have hlong := Text.length_percentDecode_le back
  rw [hdecoded, Text.length_utf8] at hlong
  have hname : more ++ behind host database params =
      (more ++ '@' :: ("tcp(".toList ++ host)) ++ ')' :: '/' :: (database ++ '?' :: params) := by
    simp [behind]
  by_cases hmem : '?' ∈ more ++ '@' :: ("tcp(".toList ++ host)
  · -- the database ends too early
    obtain ⟨front, back', hsplit⟩ := List.append_of_mem hmem
    have hbefore : before '?' (more ++ behind host database params) <+:
        more ++ '@' :: ("tcp(".toList ++ host) := by
      rw [hname, hsplit, before, List.append_assoc, List.cons_append, Text.takeWhile_append_stop]
      exact (List.takeWhile_prefix _).trans (List.prefix_append _ _)
    have hshort := Text.byteLength_le_of_prefix hbefore
    have hlength := congrArg Text.byteLength heq
    have htcp : Text.byteLength "tcp(".toList = 4 := by rfl
    have hat : '@'.utf8Size = 1 := by rfl
    have hend : Text.byteLength ")/".toList = 2 := by rfl
    simp only [Text.byteLength_append, Text.byteLength] at hshort hlength hlong
    omega
  · -- the host would end with a parenthesis
    have hbefore : before '?' (more ++ behind host database params) =
        (more ++ '@' :: ("tcp(".toList ++ host)) ++ ')' :: '/' :: database := by
      rw [hname, before, Text.takeWhile_append_of_notMem hmem,
        List.takeWhile_cons_of_pos (by decide), List.takeWhile_cons_of_pos (by decide),
        Text.takeWhile_append_stop, Text.takeWhile_of_notMem hquestion]
    obtain ⟨init, last, rfl⟩ := (List.eq_nil_or_concat host).resolve_left hhost
    rw [hbefore] at heq
    have hcancel : first ++ '/' :: (more ++ '@' :: ("tcp(".toList ++ (init ++ [last]))) ++ [')'] =
        back ++ '@' :: init ++ [last] := by
      refine List.append_cancel_right (?_ : _ ++ '/' :: database = _ ++ '/' :: database)
      simpa using heq
    have hlast := congrArg List.getLast? hcancel
    simp only [List.getLast?_append, List.getLast?_singleton, Option.some_or,
      Option.some.injEq] at hlast
    rw [hlast] at hparen
    exact hparen (by simp)

/-- With a colon before the address, not enough is taken for the password. -/
theorem not_spells_of_colon
    {first firstPassword more : List Char}
    (params : List Char)
    (huser : ':' ∉ user)
    (hparen : ')' ∉ host)
    (hhost : host ≠ [])
    (hquestion : '?' ∉ database)
    (hpassword : password = firstPassword ++ '@' :: ("tcp(".toList ++ (first ++ ")/".toList ++ more))) :
    ¬ Spells (Text.percentEncode user ++ ':' :: (Text.percentEncode firstPassword ++
        '@' :: (first ++ '/' :: before '?' (more ++ behind host database params))))
      user password host database := by
  rintro ⟨u, p, heq, hu, hp⟩
  have hcolon := Text.isDelimiter_colon
  have hat := Text.isDelimiter_at
  obtain ⟨-, hrest⟩ := Text.append_stop_inj (hcolon.notMem_percentEncode user)
    (hcolon.notMem_of_percentDecode hu huser) heq
  have hfirst := hat.notMem_percentEncode firstPassword
  have hread := Text.percentDecode_percentEncode firstPassword
  by_cases hmem : '@' ∈ p
  · -- the rest of the password is in front of the at sign of the url
    obtain ⟨front, back, rfl, hfront⟩ := List.eq_append_cons_of_mem hmem
    rw [List.append_assoc, List.cons_append] at hrest
    obtain ⟨rfl, hback⟩ := Text.append_stop_inj hfirst hfront hrest
    have hdecoded : Text.percentDecode back =
        Text.utf8 ("tcp(".toList ++ (first ++ ")/".toList ++ more)) := by
      rw [hat.percentDecode_append, hread, hpassword, Text.utf8_append, Text.utf8_cons,
        Text.utf8EncodeChar_ascii hat.ascii] at hp
      exact (List.cons.inj (List.append_cancel_left hp)).2
    exact ne_of_early hparen hhost hquestion hdecoded hback
  · obtain ⟨rfl, -⟩ := Text.append_stop_inj hfirst hmem hrest
    have hlength := congrArg List.length (hread.symm.trans hp)
    rw [hpassword] at hlength
    simp only [Text.length_utf8, Text.byteLength_append, Text.byteLength] at hlength
    have hpos := '@'.utf8Size_pos
    omega

/-- A name with an early `)/` comes to a different url. -/
theorem not_spells_of_early
    (huser : ':' ∉ user)
    (hparen : ')' ∉ host)
    (hhost : host ≠ [])
    (hquestion : '?' ∉ database)
    (hearly : ")/".toList <:+: user ++ ':' :: password)
    (h : mysqlUrl? (user ++ ':' :: password ++ behind host database params) =
      some ("mysql://".toList ++ url)) :
    ¬ Spells url user password host database := by
  obtain ⟨front, more, hsplit⟩ := Text.exists_splitFirst? hearly
  obtain ⟨credentials, first, rfl, hurl⟩ :=
    exists_of_mysqlUrl? (Text.splitFirst?_append hsplit (behind host database params)) h
  obtain rfl := List.append_cancel_left hurl
  have hname := Text.eq_of_splitFirst? hsplit
  have hprefix : before '?' (more ++ behind host database params) <+:
      more ++ behind host database params := List.takeWhile_prefix _
  have hwhole : entry credentials ++ ("tcp(".toList ++
      (first ++ ")/".toList ++ (more ++ behind host database params))) =
        user ++ ':' :: (password ++ behind host database params) := by
    simpa using (congrArg (· ++ behind host database params) hname).symm
  cases credentials with
  | none =>
      exact not_spells_of_entry huser (by simp [entry]) (by simp [userInfo]) (fun _ => rfl)
        hwhole hprefix
  | some credentials =>
      by_cases hmem : ':' ∈ credentials
      · obtain ⟨firstUser, firstPassword, rfl, hfirstUser⟩ := List.eq_append_cons_of_mem hmem
        have hparts : user ++ ':' :: password = firstUser ++ ':' :: (firstPassword ++
            '@' :: ("tcp(".toList ++ (first ++ ")/".toList ++ more))) := by
          simpa [entry] using hname
        obtain ⟨rfl, hpassword⟩ := Text.append_stop_inj huser hfirstUser hparts
        have hspells := not_spells_of_colon params huser hparen hhost hquestion hpassword
        rw [userInfo_of_colon firstPassword huser]
        simpa using hspells
      · have huserInfo : userInfo (some credentials) = Text.percentEncode credentials ++ ['@'] := by
          rw [userInfo, Text.splitFirst?_eq_none (by simpa [List.singleton_infix_iff] using hmem)]
        rw [huserInfo]
        refine not_spells_of_entry huser (by simpa [entry] using hmem) ?_ (fun cs => ?_) hwhole hprefix
        · simpa using Text.isDelimiter_colon.notMem_percentEncode credentials
        · rw [List.append_assoc, Text.percentDecode_percentEncode_append, entry, Option.map_some,
            Option.getD_some, Text.utf8_append, List.append_assoc]
          rfl

/-! ## Names that are resolved to a MySQL url -/

/-- The forms of the names that are resolved, without a dialect from outside. -/
theorem parseTrimmed_none_cases
    {dsn : Dsn}
    (h : parseTrimmed raw none = .ok dsn) :
    (∃ scheme rest,
      Text.splitFirst? "://".toList raw = some (scheme, rest) ∧
        Dialect.ofScheme? (String.ofList scheme) = some dsn.dialect ∧
        dsn.url = String.ofList (urlOfScheme dsn.dialect raw scheme rest)) ∨
    (¬ "://".toList <:+: raw ∧
      ((∃ found, mysqlUrl? raw = some found ∧ dsn = ⟨.mysql, String.ofList found⟩) ∨
        dsn.dialect = .sqlite ∧ ∃ rest, dsn.url = String.ofList ("sqlite:".toList ++ rest))) := by
  rw [parseTrimmed] at h
  split at h
  · cases h
  · split at h
    · next scheme rest hsplit =>
        split at h
        · cases h
        · next detected hdetected =>
            cases h
            exact Or.inl ⟨scheme, rest, hsplit, hdetected, rfl⟩
    · next hnone =>
      have hclear : ¬ "://".toList <:+: raw := by
        intro hin
        obtain ⟨front, rest, hsplit⟩ := Text.exists_splitFirst? hin
        rw [hnone] at hsplit
        cases hsplit
      refine Or.inr ⟨hclear, ?_⟩
      split at h
      · next found hfound =>
          cases h
          exact Or.inl ⟨found, hfound, rfl⟩
      · split at h
        · next hbegins =>
            cases h
            obtain ⟨rest, hrest⟩ := Text.beginsWith_iff.mp hbegins
            exact Or.inr ⟨rfl, rest, by rw [hrest]⟩
        · simp only at h
          split at h
          · cases h
            exact Or.inr ⟨rfl, raw, rfl⟩
          · cases h

theorem parseTrimmed_eq_ok
    {url : String}
    (h : parseTrimmed raw none = .ok ⟨.mysql, url⟩) :
    (∃ scheme rest dialect,
      Text.splitFirst? "://".toList raw = some (scheme, rest) ∧
        Dialect.ofScheme? (String.ofList scheme) = some dialect ∧
        url = String.ofList ("mysql://".toList ++ rest)) ∨
    (¬ "://".toList <:+: raw ∧
      ∃ found, mysqlUrl? raw = some found ∧ url = String.ofList found) := by
  rcases parseTrimmed_none_cases h with ⟨scheme, rest, hsplit, hdialect, hurl⟩ |
    ⟨hclear, ⟨found, hfound, heq⟩ | ⟨hsqlite, -⟩⟩
  · refine Or.inl ⟨scheme, rest, .mysql, hsplit, hdialect, ?_⟩
    refine hurl.trans (congrArg String.ofList ?_)
    rw [urlOfScheme]
    split
    · rfl
    · next hsame =>
        have hscheme : scheme = "mysql".toList := by
          by_contra hne
          exact hsame ⟨rfl, hne⟩
        rw [Text.eq_of_splitFirst? hsplit, hscheme]
        rfl
  · exact Or.inr ⟨hclear, found, hfound, (Dsn.mk.inj heq).2⟩
  · cases hsqlite

theorem parseTrimmed_of_mysqlUrl?
    (dialect : Option Dialect)
    (hne : raw ≠ [])
    (hscheme : ¬ "://".toList <:+: raw)
    (h : mysqlUrl? raw = some url) :
    parseTrimmed raw dialect = .ok ⟨dialect.getD .mysql, String.ofList url⟩ := by
  rw [parseTrimmed, if_neg hne, Text.splitFirst?_eq_none hscheme, h]

/-- A name without blanks around it keeps user and password exactly if no scheme is found in it
and its credentials hold no `)/`. -/
theorem exists_spells_iff
    (huser : ':' ∉ user)
    (hparen : ')' ∉ host)
    (hslash : '/' ∉ host)
    (hat : '@' ∉ host)
    (hhost : host ≠ [])
    (hquestion : '?' ∉ database)
    (hraw : raw = user ++ ':' :: password ++ behind host database params) :
    (∃ url,
      parseTrimmed raw none = .ok ⟨.mysql, String.ofList ("mysql://".toList ++ url)⟩ ∧
        Spells url user password host database) ↔
    ¬ "://".toList <:+: raw ∧ ¬ ")/".toList <:+: user ++ ':' :: password := by
  constructor
  · rintro ⟨url, hparse, hspells⟩
    rcases parseTrimmed_eq_ok hparse with ⟨scheme, rest, dialect, hsplit, hdialect, hurl⟩ |
      ⟨hscheme, found, hfound, hurl⟩
    · exfalso
      have hcolon : ':' ∉ scheme := notMem_of_ofScheme? hdialect (by decide)
      have hat' : '@' ∉ scheme := notMem_of_ofScheme? hdialect (by decide)
      obtain rfl : url = rest := List.append_cancel_left (String.ofList_injective hurl)
      have hname := Text.eq_of_splitFirst? hsplit
      rw [hraw] at hname
      exact not_spells_of_scheme huser hcolon hat' hname hspells
    · obtain rfl := String.ofList_injective hurl
      rw [hraw] at hfound
      exact ⟨hscheme, fun hearly =>
        not_spells_of_early huser hparen hhost hquestion hearly hfound hspells⟩
  · rintro ⟨hscheme, hclear⟩
    have hurl := mysqlUrl?_of_clear params huser hslash hat hquestion hclear
    have hne : raw ≠ [] := by simp [hraw]
    rw [← hraw] at hurl
    exact ⟨_, parseTrimmed_of_mysqlUrl? none hne hscheme hurl, _, _, rfl,
      Text.percentDecode_percentEncode user, Text.percentDecode_percentEncode password⟩

end Dsn

/-! ## Round trips -/

namespace MysqlDsn

variable {dsn : MysqlDsn}

/-- A name is resolved to a MySQL url from which its user and its password can be read. -/
def RoundTrips (dsn : MysqlDsn) : Prop :=
  ∃ user password : String,
    Dsn.parse dsn.text none =
        .ok ⟨.mysql, "mysql://" ++ user ++ ":" ++ password ++ "@" ++ dsn.host ++ "/" ++
          dsn.database⟩ ∧
      Text.percentDecode user.toList = Text.encode dsn.user ∧
      Text.percentDecode password.toList = Text.encode dsn.password

theorem toList_credentials
    (dsn : MysqlDsn) :
    dsn.credentials.toList = dsn.user.toList ++ ':' :: dsn.password.toList := by
  simp [credentials]

theorem toList_text
    (dsn : MysqlDsn) :
    dsn.text.toList = dsn.user.toList ++ ':' :: dsn.password.toList ++
      Dsn.behind dsn.host.toList dsn.database.toList dsn.params.toList := by
  simp [text, toList_credentials, Dsn.behind]

/-- Nothing is trimmed from a name but blanks behind its parameters. -/
theorem Proper.exists_trim
    (h : dsn.Proper) :
    ∃ kept blanks,
      dsn.params.toList = kept ++ blanks ∧
        (∀ x ∈ blanks, Text.isBlank x = true) ∧
        Text.trimChars dsn.text.toList = dsn.user.toList ++ ':' :: dsn.password.toList ++
          Dsn.behind dsn.host.toList dsn.database.toList kept := by
  obtain ⟨c, cs, huser⟩ : ∃ c cs, dsn.user.toList = c :: cs := by
    refine List.exists_cons_of_ne_nil fun hnil => h.user_ne ?_
    exact String.toList_eq_nil_iff.mp hnil
  have htrim := congrArg String.toList h.user_trim
  rw [Text.toList_trim, huser] at htrim
  obtain ⟨kept, blanks, hparams, hblanks, heq⟩ :=
    Text.exists_trimChars (Text.isBlank_of_trimChars htrim) (d := '?') (by decide)
      (cs ++ ':' :: (dsn.password.toList ++ '@' :: ("tcp(".toList ++ dsn.host.toList ++
        ')' :: '/' :: dsn.database.toList))) dsn.params.toList
  refine ⟨kept, blanks, hparams, hblanks, ?_⟩
  rw [toList_text, huser]
  simpa [Dsn.behind] using heq

theorem roundTrips_iff_spells :
    dsn.RoundTrips ↔
      ∃ url,
        Dsn.parseTrimmed (Text.trimChars dsn.text.toList) none =
            .ok ⟨.mysql, String.ofList ("mysql://".toList ++ url)⟩ ∧
          Dsn.Spells url dsn.user.toList dsn.password.toList dsn.host.toList
            dsn.database.toList := by
  have hurl : ∀ user password : List Char,
      "mysql://" ++ String.ofList user ++ ":" ++ String.ofList password ++ "@" ++ dsn.host ++ "/" ++
        dsn.database = String.ofList ("mysql://".toList ++
          Dsn.authority user password dsn.host.toList dsn.database.toList) := by
    intro user password
    rw [← String.toList_inj]
    simp [Dsn.authority]
  constructor
  · rintro ⟨user, password, hparse, huser, hpassword⟩
    refine ⟨_, ?_, user.toList, password.toList, rfl, huser, hpassword⟩
    rw [← hurl, String.ofList_toList, String.ofList_toList]
    exact hparse
  · rintro ⟨_, hparse, user, password, rfl, huser, hpassword⟩
    refine ⟨String.ofList user, String.ofList password, ?_, ?_, ?_⟩
    · rw [hurl]
      exact hparse
    · rw [String.toList_ofList]
      exact huser
    · rw [String.toList_ofList]
      exact hpassword

/-- A name is resolved to a url that holds its user and its password exactly if there is no `://`
in all of it and no `)/` in its credentials. -/
theorem roundTrips_iff
    (h : dsn.Proper) :
    dsn.RoundTrips ↔
      ¬ "://".toList <:+: dsn.text.toList ∧ ¬ ")/".toList <:+: dsn.credentials.toList := by
  obtain ⟨kept, blanks, hparams, hblanks, htrim⟩ := h.exists_trim
  have hhost : dsn.host.toList ≠ [] := fun hnil => h.host_ne (String.toList_eq_nil_iff.mp hnil)
  have hwhole : dsn.text.toList = Text.trimChars dsn.text.toList ++ blanks := by
    rw [htrim, toList_text, hparams]
    simp [Dsn.behind]
  have hslash : '/' ∉ blanks := fun hmem => absurd (hblanks '/' hmem) (by decide)
  have hscheme : "://".toList <:+: dsn.text.toList ↔
      "://".toList <:+: Text.trimChars dsn.text.toList := by
    constructor
    · intro hin
      rw [hwhole] at hin
      exact Text.isInfix_of_append ":/".toList hslash hin
    · intro hin
      rw [hwhole]
      exact hin.trans (List.prefix_append _ _).isInfix
  rw [roundTrips_iff_spells, hscheme, toList_credentials]
  exact Dsn.exists_spells_iff h.user_colon h.host_paren h.host_slash h.host_at hhost
    h.database_question htrim

/-- A name with a password of at signs and slashes. -/
theorem slashes_roundTrip :
    (⟨"root", "a@b/c", "127.0.0.1:3306", "shop", "loc=Local"⟩ : MysqlDsn).Proper ∧
      (⟨"root", "a@b/c", "127.0.0.1:3306", "shop", "loc=Local"⟩ : MysqlDsn).RoundTrips := by
  have hproper : (⟨"root", "a@b/c", "127.0.0.1:3306", "shop", "loc=Local"⟩ : MysqlDsn).Proper :=
    ⟨by decide, by decide, by decide, by decide, by decide, by decide, by decide, by decide⟩
  exact ⟨hproper, (roundTrips_iff hproper).mpr ⟨by decide +kernel, by decide +kernel⟩⟩

/-- A password that begins with two slashes makes a scheme of the user. -/
theorem slashes_taken_for_scheme :
    (⟨"root", "//x", "127.0.0.1:3306", "shop", ""⟩ : MysqlDsn).Proper ∧
      Dsn.parse (⟨"root", "//x", "127.0.0.1:3306", "shop", ""⟩ : MysqlDsn).text none =
        .error (.unsupportedDsn "root") ∧
      ¬ (⟨"root", "//x", "127.0.0.1:3306", "shop", ""⟩ : MysqlDsn).RoundTrips := by
  have hparse : Dsn.parse (⟨"root", "//x", "127.0.0.1:3306", "shop", ""⟩ : MysqlDsn).text none =
      .error (.unsupportedDsn "root") := by
    rfl
  refine ⟨⟨by decide, by decide, by decide, by decide, by decide, by decide, by decide,
    by decide⟩, hparse, ?_⟩
  rintro ⟨user, password, hok, -⟩
  rw [hparse] at hok
  cases hok

end MysqlDsn
end GormForge
