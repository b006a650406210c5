import GormForge.Proofs.Go.Identifier

/-!
# Go source files

What a Go source file declares, as far as its comments, its literals and its brackets tell.

**Input.**  The text of a file, read from left to right by a reader that knows what it is in the
middle of and which closing brackets are due.

**Algorithm.**  A line break inside a quoted text and a bracket that was not due break the file.
What stands at the beginning of a line where nothing is due and nothing is open is a declaration
of the file, if the whole file can be read.

**Results.**
* `Keeps.read_eq`: a text that brings the reader back to where it was can stand in any place of
  its kind.
* `keeps_of_forall`: it is enough if every one of its characters does; so words can stand in code,
  in comments and in literals (`keeps_of_isWord`).
* `Stands.append_left`: what a file declares is declared when a comment is put on top of it.
* `packageOf?_of_clause`, `packageOf?_of_comment`: the package of a file that begins with the
  clause for it.
-/

namespace GormForge
namespace Go

/-! ## Reading -/

/-- What a reader is in the middle of. -/
inductive Mode where
  | code
  /-- A slash after which a comment may begin. -/
  | slash
  | lineComment
  | blockComment
  /-- An asterisk after which a comment may end. -/
  | blockStar
  | string
  | stringEscape
  | raw
  | rune
  | runeEscape
  | broken
  deriving Repr, DecidableEq

/-- A reader, with the closing brackets that are due, the innermost first. -/
structure Reader where
  mode : Mode := .code
  due : List Char := []
  deriving Repr, DecidableEq

/-- The quote of raw strings. -/
def rawQuote : Char :=
  Char.ofNat 96

/-- The bracket that closes what a bracket opens. -/
def closing? (c : Char) : Option Char :=
  if c = '(' then some ')'
  else if c = '[' then some ']'
  else if c = '\x7b' then some '\x7d'
  else none

/-- Whether a character is a closing bracket. -/
def isClosing (c : Char) : Bool :=
  c == ')' || c == ']' || c == '\x7d'

/-- What a character that is no bracket begins in code. -/
def Mode.opened (c : Char) : Mode :=
  if c = '/' then .slash
  else if c = '"' then .string
  else if c = rawQuote then .raw
  else if c = '\'' then .rune
  else .code

/-- What a character leads to inside a comment or a literal. -/
def Mode.next : Mode → Char → Mode
  | lineComment, c => if c = '\n' then code else lineComment
  | blockComment, c => if c = '*' then blockStar else blockComment
  | blockStar, c => if c = '/' then code else if c = '*' then blockStar else blockComment
  | string, c =>
    if c = '"' then code
    else if c = '\\' then stringEscape
    else if c = '\n' then broken
    else string
  | stringEscape, c => if c = '\n' then broken else string
  | raw, c => if c = rawQuote then code else raw
  | rune, c =>
    if c = '\'' then code
    else if c = '\\' then runeEscape
    else if c = '\n' then broken
    else rune
  | runeEscape, c => if c = '\n' then broken else rune
  | mode, _ => mode

namespace Reader

/-- Where files begin and end: at the top level, in the middle of nothing. -/
def top : Reader := {}

/-- Read a character of code. -/
def stepCode (due : List Char) (c : Char) : Reader :=
  match closing? c with
  | some d => ⟨.code, d :: due⟩
  | none =>
    if isClosing c then
      if due.head? = some c then ⟨.code, due.tail⟩ else ⟨.broken, due⟩
    else
      ⟨.opened c, due⟩

/-- Read a character. -/
def step (r : Reader) (c : Char) : Reader :=
  match r.mode with
  | .code => stepCode r.due c
  | .slash =>
    if c = '/' then ⟨.lineComment, r.due⟩
    else if c = '*' then ⟨.blockComment, r.due⟩
    else stepCode r.due c
  | mode => ⟨mode.next c, r.due⟩

/-- Read a text. -/
def read (r : Reader) (cs : List Char) : Reader :=
  cs.foldl step r

variable {r : Reader}
variable {cs : List Char}

@[simp] theorem read_nil
    (r : Reader) :
    r.read [] = r := by
  rfl

@[simp] theorem read_cons
    (r : Reader)
    (c : Char)
    (cs : List Char) :
    r.read (c :: cs) = (r.step c).read cs := by
  rfl

@[simp] theorem read_append
    (r : Reader)
    (first second : List Char) :
    r.read (first ++ second) = (r.read first).read second :=
  List.foldl_append

/-- A broken file stays broken. -/
theorem read_of_broken
    (cs : List Char)
    (h : r.mode = .broken) :
    r.read cs = r := by
  obtain ⟨mode, due⟩ := r
  obtain rfl : mode = .broken := h
  induction cs with
  | nil => rfl
  | cons c cs ih => exact ih

/-- The same reader inside further brackets. -/
def inside (r : Reader) (more : List Char) : Reader :=
  ⟨r.mode, r.due ++ more⟩

theorem stepCode_inside
    {due : List Char}
    {c : Char}
    (more : List Char)
    (h : (stepCode due c).mode ≠ .broken) :
    stepCode (due ++ more) c = (stepCode due c).inside more := by
  unfold stepCode at h ⊢
  split
  · rfl
  · split
    · next hnone hclosing =>
        rw [hnone] at h
        simp only [hclosing, if_true] at h
        split at h
        · next hdue =>
            obtain ⟨rest, rfl⟩ := List.head?_eq_some_iff.mp hdue
            simp [inside]
        · exact absurd rfl h
    · rfl

theorem step_inside
    {c : Char}
    (more : List Char)
    (h : (r.step c).mode ≠ .broken) :
    (r.inside more).step c = (r.step c).inside more := by
  obtain ⟨mode, due⟩ := r
  cases mode with
  | code => exact stepCode_inside more h
  | slash =>
      simp only [step, inside] at h ⊢
      split
      · rfl
      · split
        · rfl
        · next hslash hstar =>
            rw [if_neg hslash, if_neg hstar] at h
            exact stepCode_inside more h
  | _ => rfl

/-- What is due around a text does not matter to reading it. -/
theorem read_inside
    (more : List Char)
    (h : (r.read cs).mode ≠ .broken) :
    (r.inside more).read cs = (r.read cs).inside more := by
  induction cs generalizing r with
  | nil => rfl
  | cons c cs ih =>
      have hstep : (r.step c).mode ≠ .broken := fun hbroken =>
        h (by rwa [read_cons, read_of_broken cs hbroken])
      rw [read_cons, read_cons, step_inside more hstep, ih h]

end Reader

/-! ## Texts that stay in their place -/

variable {mode : Mode}
variable {s t : String}

/-- A text that leads a reader in the middle of something back there. -/
def Keeps (mode : Mode) (s : String) : Prop :=
  Reader.read ⟨mode, []⟩ s.toList = ⟨mode, []⟩

instance (mode : Mode) (s : String) : Decidable (Keeps mode s) :=
  inferInstanceAs (Decidable (_ = _))

/-- It does so in any place of its kind. -/
theorem Keeps.read_eq
    (h : Keeps mode s)
    (due : List Char) :
    Reader.read ⟨mode, due⟩ s.toList = ⟨mode, due⟩ := by
  by_cases hmode : mode = .broken
  · exact Reader.read_of_broken s.toList hmode
  have hinside : (Reader.inside ⟨mode, []⟩ due).read s.toList =
      (Reader.read ⟨mode, []⟩ s.toList).inside due :=
    Reader.read_inside due (by rwa [h])
  rw [h] at hinside
  exact hinside

theorem keeps_of_forall
    (h : ∀ c ∈ s.toList, Reader.step ⟨mode, []⟩ c = ⟨mode, []⟩) :
    Keeps mode s := by
  unfold Keeps
  revert h
  induction s.toList with
  | nil => exact fun _ => rfl
  | cons c cs ih =>
      intro h
      obtain ⟨hc, hcs⟩ := List.forall_mem_cons.mp h
      rw [Reader.read_cons, hc, ih hcs]

theorem Keeps.append
    (hs : Keeps mode s)
    (ht : Keeps mode t) :
    Keeps mode (s ++ t) := by
  unfold Keeps at hs ht ⊢
  rw [String.toList_append, Reader.read_append, hs, ht]

/-- A text without a line break can stand in a comment at the end of a line. -/
theorem keeps_lineComment
    (h : '\n' ∉ s.toList) :
    Keeps .lineComment s :=
  keeps_of_forall fun c hc => by
    have hne : c ≠ '\n' := fun heq => h (heq ▸ hc)
    simp [Reader.step, Mode.next, hne]

/-- A text without the quote of raw strings can stand in one. -/
theorem keeps_raw
    (h : rawQuote ∉ s.toList) :
    Keeps .raw s :=
  keeps_of_forall fun c hc => by
    have hne : c ≠ rawQuote := fun heq => h (heq ▸ hc)
    simp [Reader.step, Mode.next, hne]

/-- Whether a character says something in a string: it ends or breaks it or begins an escape. -/
def isStringMark (c : Char) : Bool :=
  c == '"' || c == '\\' || c == '\n'

/-- A text without such characters can stand in a string. -/
theorem keeps_string
    (h : s.toList.any isStringMark = false) :
    Keeps .string s :=
  keeps_of_forall fun c hc => by
    have hmark : isStringMark c = false := by simpa using List.any_eq_false.mp h c hc
    simp only [isStringMark, Bool.or_eq_false_iff, beq_eq_false_iff_ne] at hmark
    obtain ⟨⟨hquote, hescape⟩, hbreak⟩ := hmark
    simp [Reader.step, Mode.next, hquote, hescape, hbreak]

/-- A word can stand in code, in a comment and in a literal. -/
theorem keeps_of_isWord
    (h : isWord s = true)
    (hmode : mode ∈ [Mode.code, .lineComment, .string, .raw]) :
    Keeps mode s := by
  have hsame : ∀ c, isWordChar c = true → Reader.step ⟨mode, []⟩ c = ⟨mode, []⟩ := by
    intro c hc
    have hne : ∀ d, isWordChar d = false → c ≠ d := fun d hd heq => by
      rw [heq, hd] at hc
      cases hc
    have hbreak := hne '\n' (by decide)
    have hquote := hne '"' (by decide)
    have hescape := hne '\\' (by decide)
    have hraw := hne rawQuote (by decide)
    have hcode : Reader.stepCode [] c = ⟨.code, []⟩ := by
      simp [Reader.stepCode, closing?, isClosing, Mode.opened, hquote, hraw, hne '(' (by decide),
        hne '[' (by decide), hne '\x7b' (by decide), hne ')' (by decide), hne ']' (by decide),
        hne '\x7d' (by decide), hne '/' (by decide), hne '\'' (by decide)]
    simp only [List.mem_cons, List.not_mem_nil, or_false] at hmode
    rcases hmode with rfl | rfl | rfl | rfl
    · exact hcode
    · simp [Reader.step, Mode.next, hbreak]
    · simp [Reader.step, Mode.next, hquote, hescape, hbreak]
    · simp [Reader.step, Mode.next, hraw]
  exact keeps_of_forall fun c hc => hsame c ((isWord_iff.mp h).2 c hc)

/-! ## Declarations -/

/-- A text is empty or ends with its last line. -/
def EndsLine (cs : List Char) : Prop :=
  ∀ c ∈ cs.getLast?, c = '\n'

/-- A text holds a part that begins at the beginning of a line, where the reader of the text is
outside of everything. -/
def Holds (r : Reader) (text part : List Char) : Prop :=
  ∃ front back, text = front ++ part ++ back ∧ EndsLine front ∧ r.read front = .top

theorem EndsLine.append
    {first second : List Char}
    (hfirst : EndsLine first)
    (hsecond : EndsLine second) :
    EndsLine (first ++ second) := by
  unfold EndsLine at hfirst hsecond ⊢
  rw [List.getLast?_append]
  cases hlast : second.getLast? with
  | none => simpa using hfirst
  | some c => simpa [hlast] using hsecond

theorem endsLine_concat
    (cs : List Char) :
    EndsLine (cs ++ ['\n']) := by
  simp [EndsLine]

theorem holds_self
    (text : List Char) :
    Holds .top text text :=
  ⟨[], [], by simp, by simp [EndsLine], rfl⟩

/-- What a text holds after its first lines is held by the whole text. -/
theorem Holds.append_left
    {r : Reader}
    {first second part : List Char}
    (hfirst : EndsLine first)
    (h : Holds (r.read first) second part) :
    Holds r (first ++ second) part := by
  obtain ⟨front, back, rfl, hline, hread⟩ := h
  exact ⟨first ++ front, back, by simp, hfirst.append hline, by rw [Reader.read_append, hread]⟩

theorem Holds.of_append
    {r : Reader}
    {text part more : List Char}
    (h : Holds r text (part ++ more)) :
    Holds r text part := by
  obtain ⟨front, back, rfl, hline, hread⟩ := h
  exact ⟨front, more ++ back, by simp, hline, hread⟩

/-- A file that can be read to its end holds a part at its top level. -/
def Stands (source part : String) : Prop :=
  Reader.top.read source.toList = .top ∧ Holds .top source.toList part.toList

/-- The beginning of the declaration of a function. -/
def functionHead (name params result : String) : String :=
  "func " ++ name ++ "(" ++ params ++ ") " ++ result ++ " \x7b\n"

/-- The beginning of the declaration of an interface. -/
def interfaceHead (name : String) : String :=
  "type " ++ name ++ " interface \x7b\n"

/-- A source file declares a function with a name and a result. -/
def DeclaresFunction (source name result : String) : Prop :=
  IsIdentifier name ∧ '\x7b' ∉ result.toList ∧ ∃ params, ')' ∉ params.toList ∧
    Stands source (functionHead name params result)

/-- A source file declares an interface with a name. -/
def DeclaresInterface (source name : String) : Prop :=
  IsIdentifier name ∧ Stands source (interfaceHead name)

/-- A source file declares an interface that embeds another one and has nothing of its own. -/
def DeclaresEmbedding (source name embedded : String) : Prop :=
  IsIdentifier name ∧ IsIdentifier embedded ∧
    Stands source (interfaceHead name ++ "\t" ++ embedded ++ "\n\x7d\n")

/-- The package that a source file belongs to, by its first line that is neither blank nor a
comment. -/
def packageOf? (source : String) : Option String :=
  let lines := source.toList.splitOn '\n'
  match lines.find? fun line => line ≠ [] && !Text.beginsWith "//".toList line with
  | some line => (Text.afterPrefix? "package ".toList line).map String.ofList
  | none => none

/-- Lines that lead back to where they began may be put in front. -/
theorem Stands.append_left
    {lead source part : String}
    (hends : EndsLine lead.toList)
    (hread : Reader.top.read lead.toList = .top)
    (h : Stands source part) :
    Stands (lead ++ source) part := by
  obtain ⟨hwhole, hpart⟩ := h
  unfold Stands
  rw [String.toList_append]
  refine ⟨by rw [Reader.read_append, hread, hwhole], .append_left hends ?_⟩
  rwa [hread]

theorem packageOf?_of_clause
    {source name : String}
    {rest : List Char}
    (hname : '\n' ∉ name.toList)
    (h : source.toList = "package ".toList ++ name.toList ++ '\n' :: rest) :
    packageOf? source = some name := by
  have hclause : '\n' ∉ "package ".toList ++ name.toList := by simp [hname]
  have hafter : Text.afterPrefix? "package ".toList ("package ".toList ++ name.toList) =
      some name.toList :=
    Text.afterPrefix?_eq_some_iff.mpr rfl
  have hfirst : ("package ".toList ++ name.toList ≠ [] &&
      !Text.beginsWith "//".toList ("package ".toList ++ name.toList)) = true := by
    simp [Text.beginsWith, Text.afterPrefix?]
  unfold packageOf?
  rw [h, List.splitOn_append_cons_self, List.splitOn_eq_singleton hclause]
  simp only [List.singleton_append, List.find?_cons, hfirst, hafter, Option.map_some,
    String.ofList_toList]

/-- A comment in front of a file leaves it its package. -/
theorem packageOf?_of_comment
    {comment source : String}
    (hcomment : Text.beginsWith "//".toList comment.toList = true)
    (hline : '\n' ∉ comment.toList) :
    packageOf? (comment ++ "\n" ++ source) = packageOf? source := by
  have hlines : (comment ++ "\n" ++ source).toList = comment.toList ++ '\n' :: source.toList := by
    simp
  unfold packageOf?
  rw [hlines, List.splitOn_append_cons_self, List.splitOn_eq_singleton hline]
  simp only [List.singleton_append, List.find?_cons, hcomment, Bool.not_true, Bool.and_false]

end Go
end GormForge
