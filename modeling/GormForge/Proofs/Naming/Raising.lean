import GormForge.Model.GoStruct
import GormForge.Proofs.Naming.Structs
import Mathlib

/-!
# Raised names

How the characters of a Go name come from those of the schema name.

**Input.**  The name of a table or a column in ASCII, and any naming convention.

**Algorithm.**  The words are titled and joined, and then the initialisms are raised one after the
other, each in the text that the last one has left.  Every one of these steps leaves each character
at its place and raises it at most, and this relation of texts is transitive.

**Results.**
* `Naming.raised_schemaName`: a titled name is the name without its separators, raised in places.
* `Naming.head?_schemaName`: a letter at its front is raised.
* `NamingConvention.structName_raised`: what struct names and field names keep of a schema name, and
  which of them are let through.
-/

namespace GormForge

/-! ## Raised texts -/

namespace Text

variable {c d e : Char}
variable {cs ds es : List Char}

/-- Letters and digits are of ASCII. -/
theorem ascii_of_isAlphanum
    (hc : c.isAlphanum = true) :
    c.toNat < 0x80 := by
  have hclass : ((c.isUpper || c.isLower) || c.isDigit) = true := hc
  simp only [Bool.or_eq_true] at hclass
  change c.val.toNat < 0x80
  rcases hclass with (hupper | hlower) | hdigit
  · have hrange : 'A'.val ≤ c.val ∧ c.val ≤ 'Z'.val := of_decide_eq_true hupper
    exact Nat.lt_of_le_of_lt hrange.2 (by decide)
  · have hrange : (decide ('a'.val ≤ c.val) && decide (c.val ≤ 'z'.val)) = true := hlower
    rw [Bool.and_eq_true, decide_eq_true_eq, decide_eq_true_eq] at hrange
    exact Nat.lt_of_le_of_lt hrange.2 (by decide)
  · have hrange : '0'.val ≤ c.val ∧ c.val ≤ '9'.val := by simpa [Char.isDigit] using hdigit
    exact Nat.lt_of_le_of_lt hrange.2 (by decide)

/-- A character that may have been raised. -/
def RaisedTo (c d : Char) : Prop :=
  d = c ∨ d = c.toUpper

theorem RaisedTo.refl
    (c : Char) :
    RaisedTo c c :=
  Or.inl rfl

theorem RaisedTo.trans
    (h : RaisedTo c d)
    (h' : RaisedTo d e) :
    RaisedTo c e := by
  rcases h with rfl | rfl
  · exact h'
  · rcases h' with rfl | rfl
    · exact Or.inr rfl
    · exact Or.inr (Char.toUpper_toUpper_eq_toUpper c)

theorem RaisedTo.isAlpha_eq
    (h : RaisedTo c d) :
    d.isAlpha = c.isAlpha := by
  rcases h with rfl | rfl
  · rfl
  · exact Char.isAlpha_toUpper_eq_isAlpha c

/-- A capital cannot be raised any more. -/
theorem RaisedTo.eq_of_isUpper
    (h : RaisedTo c d)
    (hc : c.isUpper = true) :
    d = c := by
  rcases h with heq | heq
  · exact heq
  · exact heq.trans (Char.toUpper_eq_of_not_isLower (Char.not_isLower_of_isUpper hc))

/-- Only letters are raised. -/
theorem RaisedTo.isAlphanum_eq
    (h : RaisedTo c d) :
    d.isAlphanum = c.isAlphanum := by
  rcases h with rfl | rfl
  · rfl
  · by_cases hc : c.isLower = true
    · have halpha : c.isAlpha = true := by simp [Char.isAlpha, hc]
      simp [Char.isAlphanum, halpha]
    · rw [Char.toUpper_eq_of_not_isLower hc]

theorem raised_refl
    (cs : List Char) :
    List.Forall₂ RaisedTo cs cs :=
  List.forall₂_same.mpr fun c _ => .refl c

/-- What is raised in several steps is raised. -/
theorem raised_trans
    (h : List.Forall₂ RaisedTo cs ds)
    (h' : List.Forall₂ RaisedTo ds es) :
    List.Forall₂ RaisedTo cs es := by
  induction h generalizing es with
  | nil => exact h'
  | cons hc _ ih =>
      cases h' with
      | cons hd hrest => exact .cons (hc.trans hd) (ih hrest)

theorem all_isAlphanum_of_raised
    (h : List.Forall₂ RaisedTo cs ds) :
    ds.all Char.isAlphanum = cs.all Char.isAlphanum := by
  induction h with
  | nil => rfl
  | cons hc _ ih => rw [List.all_cons, List.all_cons, hc.isAlphanum_eq, ih]

theorem head?_imp
    {p q : Char → Bool}
    (hpq : ∀ c, p c = true → q c = true)
    (h : cs.head?.any p = true) :
    cs.head?.any q = true := by
  cases cs with
  | nil => cases h
  | cons c cs => exact hpq c h

theorem head?_isAlpha_of_raised
    (h : List.Forall₂ RaisedTo cs ds) :
    ds.head?.any Char.isAlpha = cs.head?.any Char.isAlpha := by
  cases h with
  | nil => rfl
  | cons hc _ => exact hc.isAlpha_eq

/-- A capital at the front stays. -/
theorem head?_of_raised
    (h : List.Forall₂ RaisedTo cs ds)
    (hcs : cs.head?.any Char.isUpper = true) :
    ds.head?.any Char.isUpper = true := by
  cases h with
  | nil => exact hcs
  | cons hc _ =>
      change Char.isUpper _ = true at hcs
      change Char.isUpper _ = true
      rwa [hc.eq_of_isUpper hcs]

theorem raised_upperFirstChars
    (h : ∀ c ∈ cs, c.toNat < 0x80) :
    List.Forall₂ RaisedTo cs (upperFirstChars cs) := by
  cases cs with
  | nil => exact .nil
  | cons c cs =>
      have hc : upperChar c = [c.toUpper] := if_pos (h c (List.mem_cons_self ..))
      rw [upperFirstChars, hc]
      exact .cons (Or.inr rfl) (raised_refl cs)

end Text

/-! ## Titles and initialisms -/

namespace Naming

variable {cs : List Char}
variable {name : String}

/-- Raising an initialism leaves every character at its place. -/
theorem raised_raiseFrom
    {capitals word : List Char}
    (hcapitals : List.Forall₂ Text.RaisedTo word capitals)
    (skip : Nat)
    (cs : List Char) :
    List.Forall₂ Text.RaisedTo (cs.drop skip) (raiseFrom capitals word skip cs) := by
  fun_induction raiseFrom capitals word skip cs with
  | case1 => simp
  | case2 skip c cs ih => exact ih
  | case3 c cs hnone ih => exact .cons (.refl c) ih
  | case4 c cs hafter =>
      have hword : c :: cs = word ++ [] := Text.afterPrefix?_eq_some_iff.mp hafter
      rwa [List.drop_zero, hword, List.append_nil]
  | case5 c cs next rest hafter hnext ih =>
      have hword : c :: cs = word ++ next :: rest := Text.afterPrefix?_eq_some_iff.mp hafter
      -- the scan goes on after the character behind the initialism
      have hrest : cs.drop word.length = rest := by
        have hdrop := congrArg (List.drop (word.length + 1)) hword
        simpa using hdrop
      rw [hrest] at ih
      rw [List.drop_zero, hword]
      exact List.rel_append hcapitals (.cons (.refl next) ih)
  | case6 c cs next rest hafter hnext ih => exact .cons (.refl c) ih

/-- Raising the initialisms one after the other leaves every character at its place. -/
theorem raised_raiseInitialisms
    (cs : List Char) :
    List.Forall₂ Text.RaisedTo cs (raiseInitialisms cs) := by
  have htitled : ∀ initialism ∈ commonInitialisms,
      (titled initialism).map Char.toUpper = initialism.toList := by
    decide
  rw [raiseInitialisms]
  generalize commonInitialisms = initialisms at htitled
  induction initialisms generalizing cs with
  | nil => exact Text.raised_refl cs
  | cons initialism rest ih =>
      have hcapitals : List.Forall₂ Text.RaisedTo (titled initialism) initialism.toList := by
        rw [← htitled initialism (List.mem_cons_self ..), List.forall₂_map_right_iff]
        exact List.forall₂_same.mpr fun c _ => Or.inr rfl
      have hrest := ih (raise cs initialism) fun other hother =>
        htitled other (List.mem_cons_of_mem _ hother)
      exact Text.raised_trans (raised_raiseFrom hcapitals 0 cs) hrest

/-- Whether a character stands between the words of a name. -/
def isSeparator (c : Char) : Bool :=
  c == '_' || c == ' '

/-- A titled name is the name without its separators, raised in places. -/
theorem raised_schemaName
    (h : ∀ c ∈ name.toList, c.toNat < 0x80) :
    List.Forall₂ Text.RaisedTo (name.toList.filter fun c => !isSeparator c)
      (schemaName name).toList := by
  have hwords : ∀ words : List (List Char), (∀ c ∈ words.flatten, c.toNat < 0x80) →
      List.Forall₂ Text.RaisedTo words.flatten (words.flatMap Text.upperFirstChars) := by
    intro words hwords
    induction words with
    | nil => exact .nil
    | cons word rest ih =>
        rw [List.flatten_cons] at hwords ⊢
        rw [List.flatMap_cons]
        exact List.rel_append
          (Text.raised_upperFirstChars fun c hc => hwords c (List.mem_append_left _ hc))
          (ih fun c hc => hwords c (List.mem_append_right _ hc))
  have hjoined := hwords (name.toList.splitOnP isSeparator) fun c hc => by
    rw [Text.flatten_splitOnP] at hc
    exact h c (List.mem_filter.mp hc).1
  rw [Text.flatten_splitOnP] at hjoined
  rw [schemaName, String.toList_ofList]
  exact Text.raised_trans hjoined (raised_raiseInitialisms _)

/-- A letter that comes first but for separators is raised. -/
theorem head?_schemaName
    (h : (name.toList.filter fun c => !isSeparator c).head?.any Char.isAlpha = true) :
    (schemaName name).toList.head?.any Char.isUpper = true := by
  have hwords : ∀ words : List (List Char), words.flatten.head?.any Char.isAlpha = true →
      (words.flatMap Text.upperFirstChars).head?.any Char.isUpper = true := by
    intro words hwords
    induction words with
    | nil => cases hwords
    | cons word rest ih =>
        cases word with
        | nil => exact ih hwords
        | cons c cs =>
            have hc : c.isAlpha = true := hwords
            have hupper : Text.upperChar c = [c.toUpper] :=
              if_pos (Text.ascii_of_isAlphanum (by simp [Char.isAlphanum, hc]))
            simp [Text.upperFirstChars, hupper, hc]
  rw [← Text.flatten_splitOnP] at h
  rw [schemaName, String.toList_ofList]
  exact Text.head?_of_raised (raised_raiseInitialisms _) (hwords _ h)

end Naming

/-! ## Struct names -/

namespace NamingConvention

/-- What a convention leaves of a name before it is titled: no prefix, the singular of the last
word, and no separators. -/
def bareName (convention : NamingConvention) (name : String) : List Char :=
  let name := convention.withoutPrefix name
  (if convention.singularTable then name else Naming.singularize name).toList.filter fun c =>
    !Naming.isSeparator c

/-- A struct name is the bare name, raised in places. -/
theorem raised_structName
    (convention : NamingConvention)
    {name : String}
    (h : ∀ c ∈ name.toList, c.toNat < 0x80) :
    List.Forall₂ Text.RaisedTo (convention.bareName name) (convention.structName name).toList := by
  have hplain : ∀ c ∈ (convention.withoutPrefix name).toList, c.toNat < 0x80 := fun c hc =>
    h c (mem_of_mem_withoutPrefix hc)
  refine Naming.raised_schemaName ?_
  split
  · exact hplain
  · exact Naming.forall_mem_singularize (fun c hc => Text.ascii_of_isAlphanum hc) hplain

/-- A letter at the front of the bare name is a capital at the front of the struct name. -/
theorem head?_structName
    (convention : NamingConvention)
    {name : String}
    (h : (convention.bareName name).head?.any Char.isAlpha = true) :
    (convention.structName name).toList.head?.any Char.isUpper = true :=
  Naming.head?_schemaName h

/-- A struct name is exported exactly if the bare name begins with a letter and is made of letters
and digits: it holds no underscore. -/
theorem isExportedWord_structName_iff
    (convention : NamingConvention)
    {name : String}
    (h : ∀ c ∈ name.toList, c.toNat < 0x80) :
    Go.isExportedWord (convention.structName name) = true ↔
      (convention.bareName name).head?.any Char.isAlpha = true ∧
        (convention.bareName name).all Char.isAlphanum = true := by
  have hraised := convention.raised_structName h
  rw [Go.isExportedWord, Bool.and_eq_true, Go.isWord_iff, ← Text.all_isAlphanum_of_raised hraised,
    List.all_eq_true]
  constructor
  · rintro ⟨⟨-, hword⟩, hupper⟩
    refine ⟨?_, fun c hc => ?_⟩
    · rw [← Text.head?_isAlpha_of_raised hraised]
      exact Text.head?_imp (fun c hc => by simp [Char.isAlpha, hc]) hupper
    · have hplain : c ≠ '_' := fun heq => convention.noUnderscore_structName name (heq ▸ hc)
      simpa [Go.isWordChar, hplain] using hword c hc
  · rintro ⟨hletter, hall⟩
    have hupper := convention.head?_structName hletter
    refine ⟨⟨?_, fun c hc => by simp [Go.isWordChar, hall c hc]⟩, hupper⟩
    intro hnil
    rw [hnil] at hupper
    cases hupper

/-- The name of the struct of a table, and that of the field of a column, is what is left of the
schema name without prefix, plural and separators: as many characters, each at its place as it is or
raised, and no underscore.  It is let through exactly if what is left begins with a letter and is
made of letters and digits. -/
theorem structName_raised
    (convention : NamingConvention)
    {name : String}
    (h : ∀ c ∈ name.toList, c.toNat < 0x80) :
    (convention.structName name).length = (convention.bareName name).length ∧
      List.Forall₂ Text.RaisedTo (convention.bareName name) (convention.structName name).toList ∧
      '_' ∉ (convention.structName name).toList ∧
      convention.fieldName name = convention.structName name ∧
      ∀ table, GoStruct.checkName table (convention.structName name) = .ok true ↔
        (convention.bareName name).head?.any Char.isAlpha = true ∧
          (convention.bareName name).all Char.isAlphanum = true := by
  have hraised := convention.raised_structName h
  refine ⟨?_, hraised, convention.noUnderscore_structName name, rfl, fun table => ?_⟩
  · rw [← String.length_toList]
    exact hraised.length_eq.symm
  · rw [GoStruct.checkName_eq_ok_true_iff, convention.isExportedWord_structName_iff h]

/-- The initialisms of a table's name are raised; a name that begins with a digit is not let
through. -/
theorem apiKeys_raised :
    (∀ c ∈ "t_api_keys".toList, c.toNat < 0x80) ∧
      List.Forall₂ Text.RaisedTo "apikey".toList "APIKey".toList ∧
      GoStruct.checkName "t_api_keys" "APIKey" = .ok true ∧
      (∀ c ∈ "2fa".toList, c.toNat < 0x80) ∧
      GoStruct.checkName "2fa" "2fa" ≠ .ok true := by
  have hbare : ({ tablePrefix := "t_" } : NamingConvention).bareName "t_api_keys" =
      "apikey".toList := by decide +kernel
  have hname : ({ tablePrefix := "t_" } : NamingConvention).structName "t_api_keys" =
      "APIKey" := by decide +kernel
  have hascii : ∀ c ∈ "t_api_keys".toList, c.toNat < 0x80 := by simp
  obtain ⟨-, hraised, -, -, hcheck⟩ := structName_raised { tablePrefix := "t_" } hascii
  rw [hbare, hname] at hraised
  rw [hbare, hname] at hcheck
  have hdigits : ∀ c ∈ "2fa".toList, c.toNat < 0x80 := by simp
  obtain ⟨-, -, -, -, hdigit⟩ := structName_raised {} hdigits
  have hbare' : ({} : NamingConvention).bareName "2fa" = "2fa".toList := by decide +kernel
  have hname' : ({} : NamingConvention).structName "2fa" = "2fa" := by decide +kernel
  rw [hbare', hname'] at hdigit
  refine ⟨hascii, hraised, (hcheck _).mpr (by decide), hdigits, fun hok => ?_⟩
  exact absurd ((hdigit _).mp hok).1 (by decide)

end NamingConvention
end GormForge
