import GormForge.Proofs.Schema.Redaction

/-!
# Refused data source names

What the refusal of a data source name tells about the password in it.

**Input.**  Two names `user:password@tcp(host)/database` that differ in their passwords only, both
of which are refused.  The parts are any texts.

**Algorithm.**  What comes before the first `://` is taken for a scheme, and the refusal calls the
name by it.  If the user holds no `://`, this text begins with the user and goes on into the
password, and past it if the first `://` stands in the host or in the database.

**Results.**
* `eq_of_parse_eq_error`: a refusal tells the text before the first `://`, and nothing else.
* `quoted_of_behind`: if the first `://` stands behind the password, all of the password is told.
* `refusals_eq_iff`: two refusals agree exactly if they quote the same; they do if there is no
  `://` in either name.
-/

namespace GormForge
namespace Dsn

variable {raw : List Char}
variable {dialect : Option Dialect}
variable {user password host database : String}
variable {e : SchemaError}

/-! ## What a refusal tells -/

/-- What the refusal of a text calls it. -/
def subject (raw : List Char) : String :=
  match Text.splitFirst? "://".toList raw with
  | some (front, _) => String.ofList front
  | none => "unknown"

theorem subject_of_split
    {front rest : List Char}
    (h : Text.splitFirst? "://".toList raw = some (front, rest)) :
    subject raw = String.ofList front := by
  rw [subject, h]

theorem subject_of_none
    (h : Text.splitFirst? "://".toList raw = none) :
    subject raw = "unknown" := by
  rw [subject, h]

/-- A text that is refused is unsupported, and nothing is told of it but what precedes the first
`://`. -/
theorem eq_of_parseTrimmed_eq_error
    (hne : raw ≠ [])
    (h : parseTrimmed raw dialect = .error e) :
    e = .unsupportedDsn (subject raw) := by
  rw [parseTrimmed, if_neg hne] at h
  split at h
  · next scheme rest hsplit =>
      split at h
      · cases h
        rw [subject_of_split hsplit]
      · cases h
  · next hnone =>
      rw [subject_of_none hnone]
      split at h
      · cases h
      · split at h
        · cases h
        · simp only at h
          split at h <;> cases h
          rfl

/-- Without `://` nothing is told. -/
theorem subject_of_clear
    (h : ¬ "://".toList <:+: raw) :
    subject raw = "unknown" :=
  subject_of_none (Text.splitFirst?_eq_none h)

/-- What follows a `://` is not told. -/
theorem subject_append
    (h : "://".toList <:+: raw)
    (tail : List Char) :
    subject (raw ++ tail) = subject raw := by
  obtain ⟨front, rest, hsplit⟩ := Text.exists_splitFirst? h
  rw [subject_of_split hsplit, subject_of_split (Text.splitFirst?_append hsplit tail)]

/-! ## Names -/

/-- A name from the colon before its password on. -/
def fromPassword (password host database : String) : List Char :=
  ':' :: (password.toList ++ '@' :: (addressOf host.toList ++ '/' :: database.toList))

/-- The beginning of a name up to the first `://` from its password on. -/
def quoted (user password host database : String) : String :=
  match Text.splitFirst? "://".toList (fromPassword password host database) with
  | some (front, _) => String.ofList (user.toList.dropWhile Text.isBlank ++ front)
  | none => "unknown"

/-- Of a name that is trimmed, the user loses the blanks before it and the database those behind
it. -/
theorem exists_trimChars_goText
    (user password host database : String) :
    ∃ blanks,
      (∀ c ∈ blanks, Text.isBlank c = true) ∧
        Text.trimChars (goText user password host database).toList ++ blanks =
          user.toList.dropWhile Text.isBlank ++ fromPassword password host database := by
  refine ⟨(database.toList.reverse.takeWhile Text.isBlank).reverse, ?_, ?_⟩
  · intro c hc
    exact List.mem_takeWhile_imp (List.mem_reverse.mp hc)
  · have hdatabase : Text.trimEndBy Text.isBlank database.toList ++
        (database.toList.reverse.takeWhile Text.isBlank).reverse = database.toList := by
      rw [Text.trimEndBy, ← List.reverse_append, List.takeWhile_append_dropWhile,
        List.reverse_reverse]
    rw [trimChars_goText, fromPassword]
    simp only [List.append_assoc, List.cons_append, hdatabase]

/-- Blanks behind a name are not told. -/
theorem subject_append_blanks
    {blanks : List Char}
    (h : ∀ c ∈ blanks, Text.isBlank c = true) :
    subject (raw ++ blanks) = subject raw := by
  have hslash : '/' ∉ blanks := fun hmem => absurd (h '/' hmem) (by decide)
  by_cases hin : "://".toList <:+: raw
  · exact subject_append hin blanks
  · have hnot : ¬ "://".toList <:+: raw ++ blanks := fun hlong =>
      hin (Text.isInfix_of_append ":/".toList hslash hlong)
    rw [subject_of_clear hin, subject_of_clear hnot]

/-- The refusal of a name calls it by what precedes its first `://`. -/
theorem eq_of_parse_eq_error
    (h : parse (goText user password host database) dialect = .error e) :
    e = .unsupportedDsn
      (subject (user.toList.dropWhile Text.isBlank ++ fromPassword password host database)) := by
  obtain ⟨blanks, hblanks, htrim⟩ := exists_trimChars_goText user password host database
  have hne : Text.trimChars (goText user password host database).toList ≠ [] := by
    simp [trimChars_goText]
  rw [eq_of_parseTrimmed_eq_error hne h, ← htrim, subject_append_blanks hblanks]

/-! ## Where the first `://` stands -/

theorem isInfix_dropWhile_iff
    {cs : List Char} :
    "://".toList <:+: cs.dropWhile Text.isBlank ↔ "://".toList <:+: cs := by
  have hcolon : ':' ∉ cs.takeWhile Text.isBlank := fun hmem =>
    absurd (List.mem_takeWhile_imp hmem) (by decide)
  constructor
  · exact fun hin => hin.trans (List.dropWhile_suffix _).isInfix
  · intro hin
    rw [← List.takeWhile_append_dropWhile (p := Text.isBlank) (l := cs)] at hin
    exact Text.isInfix_of_append_left "//".toList hcolon hin

/-- If the user holds a `://`, nothing behind the user is told. -/
theorem subject_of_user
    (h : "://".toList <:+: user.toList) :
    subject (user.toList.dropWhile Text.isBlank ++ fromPassword password host database) =
      subject (user.toList.dropWhile Text.isBlank) :=
  subject_append (isInfix_dropWhile_iff.mpr h) _

/-- Otherwise the name is told from the user on. -/
theorem subject_eq_quoted
    (h : ¬ "://".toList <:+: user.toList) :
    subject (user.toList.dropWhile Text.isBlank ++ fromPassword password host database) =
      quoted user password host database := by
  have hsplit := Text.splitFirst?_append_stop (c := ':') (by decide)
    (isInfix_dropWhile_iff.not.mpr h)
    (password.toList ++ '@' :: (addressOf host.toList ++ '/' :: database.toList))
  rw [subject, quoted, fromPassword, hsplit]
  cases Text.splitFirst? "://".toList
    (':' :: (password.toList ++ '@' :: (addressOf host.toList ++ '/' :: database.toList))) <;> rfl

/-- If the first `://` stands behind the password, all of the password is told. -/
theorem quoted_of_behind
    (user : String)
    (h : "://".toList <:+: (host ++ ")/" ++ database).toList) :
    ∃ front : List Char, ∀ password : String,
      ¬ "://".toList <:+: ':' :: password.toList →
        quoted user password host database =
          String.ofList (user.toList.dropWhile Text.isBlank ++
            ':' :: (password.toList ++ front)) := by
  have hbehind : "://".toList <:+: '@' :: (addressOf host.toList ++ '/' :: database.toList) := by
    refine h.trans ⟨"@tcp(".toList, [], ?_⟩
    simp [addressOf]
  obtain ⟨front, rest, hfirst⟩ := Text.exists_splitFirst? hbehind
  refine ⟨front, fun password hpassword => ?_⟩
  have hsplit := Text.splitFirst?_append_stop (c := '@') (by decide) hpassword
    (addressOf host.toList ++ '/' :: database.toList)
  rw [hfirst] at hsplit
  rw [quoted, fromPassword, ← List.cons_append, hsplit]
  rfl

theorem subject_of_clear_name
    (h : ¬ "://".toList <:+: (goText user password host database).toList) :
    subject (user.toList.dropWhile Text.isBlank ++ fromPassword password host database) =
      "unknown" := by
  refine subject_of_clear fun hin => h (hin.trans ?_)
  have hname : (goText user password host database).toList =
      user.toList ++ fromPassword password host database := by
    simp [goText, fromPassword, addressOf]
  obtain ⟨blanks, hblanks⟩ := List.dropWhile_suffix (l := user.toList) Text.isBlank
  exact List.IsSuffix.isInfix ⟨blanks, by rw [hname, ← List.append_assoc, hblanks]⟩

/-! ## Two refusals -/

/-- Two refusals agree exactly if the user holds a `://`, or they quote the same.  They do if
there is no `://` in either name.  If there is one behind the passwords only, they agree exactly
if the passwords do. -/
theorem refusals_eq_iff
    {first second : String}
    {e₁ e₂ : SchemaError}
    (h₁ : parse (goText user first host database) dialect = .error e₁)
    (h₂ : parse (goText user second host database) dialect = .error e₂) :
    (e₁ = e₂ ↔
      "://".toList <:+: user.toList ∨
        quoted user first host database = quoted user second host database) ∧
    (¬ "://".toList <:+: (goText user first host database).toList →
      ¬ "://".toList <:+: (goText user second host database).toList → e₁ = e₂) ∧
    (¬ "://".toList <:+: (user ++ ":" ++ first).toList →
      ¬ "://".toList <:+: (user ++ ":" ++ second).toList →
      "://".toList <:+: (host ++ ")/" ++ database).toList → (e₁ = e₂ ↔ first = second)) := by
  obtain rfl := eq_of_parse_eq_error h₁
  obtain rfl := eq_of_parse_eq_error h₂
  rw [SchemaError.unsupportedDsn.injEq]
  refine ⟨?_, fun hfirst hsecond => ?_, fun hfirst hsecond hbehind => ?_⟩
  · by_cases huser : "://".toList <:+: user.toList
    · simp only [huser, true_or, iff_true]
      rw [subject_of_user huser, subject_of_user huser]
    · simp only [huser, false_or]
      rw [subject_eq_quoted huser, subject_eq_quoted huser]
  · rw [subject_of_clear_name hfirst, subject_of_clear_name hsecond]
  · obtain ⟨front, hquoted⟩ := quoted_of_behind user hbehind
    have hparts : ∀ {password : String}, ¬ "://".toList <:+: (user ++ ":" ++ password).toList →
        ¬ "://".toList <:+: user.toList ∧ ¬ "://".toList <:+: ':' :: password.toList := by
      intro password hnot
      have htext : (user ++ ":" ++ password).toList = user.toList ++ ':' :: password.toList := by
        simp
      rw [htext] at hnot
      exact ⟨fun hin => hnot (hin.trans (List.prefix_append _ _).isInfix),
        fun hin => hnot (hin.trans (List.suffix_append _ _).isInfix)⟩
    rw [subject_eq_quoted (hparts hfirst).1, subject_eq_quoted (hparts hsecond).1,
      hquoted first (hparts hfirst).2, hquoted second (hparts hsecond).2]
    constructor
    · intro heq
      have hlist := List.append_cancel_left (String.ofList_injective heq)
      exact String.toList_inj.mp (List.append_cancel_right (List.cons.inj hlist).2)
    · rintro rfl
      rfl

/-- Two passwords without `://`, which are told if it stands in the host and not if it stands
nowhere. -/
theorem root_refusals :
    (∃ e₁ e₂,
      parse (goText "root" "hunter2" "http://db" "shop") none = .error e₁ ∧
        parse (goText "root" "swordfish" "http://db" "shop") none = .error e₂ ∧
        ¬ "://".toList <:+: ("root" ++ ":" ++ "hunter2").toList ∧
        ¬ "://".toList <:+: ("root" ++ ":" ++ "swordfish").toList ∧
        "://".toList <:+: ("http://db" ++ ")/" ++ "shop").toList ∧
        e₁ ≠ e₂) ∧
    ∃ e₁ e₂,
      parse (goText "root" "a)/" "db" "shop") none = .error e₁ ∧
        parse (goText "root" "b)/" "db" "shop") none = .error e₂ ∧
        ¬ "://".toList <:+: (goText "root" "a)/" "db" "shop").toList ∧
        ¬ "://".toList <:+: (goText "root" "b)/" "db" "shop").toList ∧
        e₁ = e₂ := by
  have hhunter : parse (goText "root" "hunter2" "http://db" "shop") none =
      .error (.unsupportedDsn "root:hunter2@tcp(http") := by
    rfl
  have hsword : parse (goText "root" "swordfish" "http://db" "shop") none =
      .error (.unsupportedDsn "root:swordfish@tcp(http") := by
    rfl
  have ha : parse (goText "root" "a)/" "db" "shop") none = .error (.unsupportedDsn "unknown") := by
    rfl
  have hb : parse (goText "root" "b)/" "db" "shop") none = .error (.unsupportedDsn "unknown") := by
    rfl
  have hfirst : ¬ "://".toList <:+: ("root" ++ ":" ++ "hunter2").toList := by decide +kernel
  have hsecond : ¬ "://".toList <:+: ("root" ++ ":" ++ "swordfish").toList := by decide +kernel
  have hbehind : "://".toList <:+: ("http://db" ++ ")/" ++ "shop").toList := by decide +kernel
  have hclear : ¬ "://".toList <:+: (goText "root" "a)/" "db" "shop").toList := by decide +kernel
  have hclear' : ¬ "://".toList <:+: (goText "root" "b)/" "db" "shop").toList := by
    decide +kernel
  have htold := ((refusals_eq_iff hhunter hsword).2.2 hfirst hsecond hbehind).not.mpr (by decide)
  exact ⟨⟨_, _, hhunter, hsword, hfirst, hsecond, hbehind, htold⟩,
    _, _, ha, hb, hclear, hclear', (refusals_eq_iff ha hb).2.1 hclear hclear'⟩

/-- A password that holds a `://` is told up to it, and another one is not told. -/
theorem hunter_told :
    ∃ e₁ e₂,
      parse (goText "root" "hunter2://x" "db" "shop") none = .error e₁ ∧
        parse (goText "root" ")/" "db" "shop") none = .error e₂ ∧
        e₁.message = "unsupported data source 'root:hunter2'" ∧
        e₂.message = "unsupported data source 'unknown'" ∧
        e₁ ≠ e₂ :=
  ⟨.unsupportedDsn "root:hunter2", .unsupportedDsn "unknown", by rfl, by rfl, by decide, by decide,
    by decide⟩

end Dsn
end GormForge
