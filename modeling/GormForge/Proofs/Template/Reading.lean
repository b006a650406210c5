import GormForge.Proofs.Go.Source
import GormForge.Proofs.Template.Expansion

/-!
# Reading templates as Go code

What a template makes a reader of Go code do, whatever its holes are filled with.

**Input.**  Lines with holes, and the places in which each hole may stand.

**Algorithm.**  The reader walks through the text between the holes and passes over the holes,
which have to stand in places that are theirs; what fills them must leave the reader where it
was.

**Results.**
* `renders_code`: lines that can be walked through render to a text that leads the reader the
  same way, and what begins at the top level of the template does so in the text.
* `Renders.append`, `renders_loop`: parts and loops of a template lead the reader on.
-/

namespace GormForge
namespace Template

/-- The holes of a template with what a reader may be in the middle of there. -/
abbrev Uses := List (List Char × Go.Mode)

variable {scope : Scope}
variable {uses : Uses}
variable {r next last : Go.Reader}
variable {cs line : List Char}
variable {lines suffix : List (List Char)}

/-! ## Walking -/

/-- Walk through a text and pass over its holes; inside a hole, with the part of its name that was
read, in reverse. -/
def walk (uses : Uses) : Go.Reader → Option (List Char) → List Char → Option Go.Reader
  | r, none, [] => some r
  | r, none, c :: cs =>
    if c = '‹' then walk uses r (some []) cs else walk uses (r.step (braced c)) none cs
  | _, some _, [] => none
  | r, some name, c :: cs =>
    if c = '‹' then none
    else if c = '›' then
      if uses.contains (name.reverse, r.mode) then walk uses r none cs else none
    else walk uses r (some (c :: name)) cs

/-- The walks that come to their end with a reader, character by character. -/
inductive Walked (uses : Uses) (last : Go.Reader) :
    Go.Reader → Option (List Char) → List Char → Prop
  | done : Walked uses last last none []
  | opens {r : Go.Reader} {cs : List Char}
      (h : Walked uses last r (some []) cs) :
      Walked uses last r none ('‹' :: cs)
  | text {r : Go.Reader} {c : Char} {cs : List Char}
      (hopen : c ≠ '‹')
      (h : Walked uses last (r.step (braced c)) none cs) :
      Walked uses last r none (c :: cs)
  | closes {r : Go.Reader} {name cs : List Char}
      (huse : (name.reverse, r.mode) ∈ uses)
      (h : Walked uses last r none cs) :
      Walked uses last r (some name) ('›' :: cs)
  | reads {r : Go.Reader} {c : Char} {name cs : List Char}
      (hopen : c ≠ '‹')
      (hclose : c ≠ '›')
      (h : Walked uses last r (some (c :: name)) cs) :
      Walked uses last r (some name) (c :: cs)

theorem walked_of_walk
    {state : Option (List Char)}
    (h : walk uses r state cs = some next) :
    Walked uses next r state cs := by
  induction cs generalizing r state with
  | nil =>
      cases state with
      | none =>
          cases h
          exact .done
      | some name => cases h
  | cons c cs ih =>
      cases state with
      | none =>
          simp only [walk] at h
          split at h
          case isTrue hopen =>
              subst hopen
              exact .opens (ih h)
          case isFalse hopen => exact .text hopen (ih h)
      | some name =>
          simp only [walk] at h
          split at h
          case isTrue => cases h
          case isFalse hopen =>
              split at h
              case isTrue hclose =>
                  subst hclose
                  split at h
                  case isTrue huse => exact .closes (List.contains_iff_mem.mp huse) (ih h)
                  case isFalse => cases h
              case isFalse hclose => exact .reads hopen hclose (ih h)

/-- Walk through lines. -/
def walkLines (uses : Uses) : Go.Reader → List (List Char) → Option Go.Reader
  | r, [] => some r
  | r, line :: rest =>
    (walk uses r none line).bind fun next => walkLines uses (next.step '\n') rest

/-- The holes can be filled, with texts that keep their places. -/
def Suits (scope : Scope) (uses : Uses) : Prop :=
  ∀ use ∈ uses, Fills scope use.1 ∧ Go.Keeps use.2 (filling scope use.1)

instance (scope : Scope) (uses : Uses) : Decidable (Suits scope uses) :=
  inferInstanceAs (Decidable (∀ use ∈ uses, _ ∧ _))

theorem Suits.fills
    (h : Suits scope uses) :
    ∀ name ∈ uses.map Prod.fst, Fills scope name := by
  intro name hname
  obtain ⟨use, huse, rfl⟩ := List.mem_map.mp hname
  exact (h use huse).1

/-- What can be walked through has known holes. -/
theorem scan_of_walk
    {state : Option (List Char)}
    (h : walk uses r state cs = some next) :
    scan (uses.map Prod.fst) state cs = true := by
  have hwalked := walked_of_walk h
  clear h
  induction hwalked with
  | done => rfl
  | opens _ ih => simpa [scan] using ih
  | text hopen _ ih => simpa [scan, hopen] using ih
  | @closes r name cs huse _ ih =>
      rw [scan, if_neg (by decide), if_pos rfl, ih, Bool.and_true, List.contains_iff_mem]
      exact List.mem_map_of_mem huse
  | reads hopen hclose _ ih => simpa [scan, hopen, hclose] using ih

/-- A text leads the reader where the walk through the template ends. -/
theorem read_expand
    {state : Option (List Char)}
    (hsuits : Suits scope uses)
    (h : walk uses r state cs = some next) :
    r.read (expand scope state cs) = next := by
  have hwalked := walked_of_walk h
  clear h
  induction hwalked with
  | done => rfl
  | opens _ ih => simpa [expand] using ih
  | text hopen _ ih =>
      rw [expand, if_neg hopen, Go.Reader.read_cons]
      exact ih
  | @closes r name cs huse _ ih =>
      have hkeeps := (hsuits _ huse).2
      rw [expand, if_pos rfl, Go.Reader.read_append, hkeeps.read_eq r.due]
      exact ih
  | reads _ hclose _ ih => simpa [expand, hclose] using ih

/-! ## Lines -/

theorem exists_of_walkLines_cons
    (h : walkLines uses r (line :: lines) = some last) :
    ∃ next, walk uses r none line = some next ∧
      walkLines uses (next.step '\n') lines = some last :=
  Option.bind_eq_some_iff.mp h

theorem lines_of_walkLines
    {lines : List String}
    (h : walkLines uses r (lines.map String.toList) = some last) :
    Lines (uses.map Prod.fst) lines := by
  induction lines generalizing r with
  | nil => exact lines_nil
  | cons line rest ih =>
      obtain ⟨next, hwalk, hrest⟩ := exists_of_walkLines_cons h
      intro other hother
      rcases List.mem_cons.mp hother with rfl | hother
      · exact scan_of_walk hwalk
      · exact ih hrest other hother

theorem read_line
    (hsuits : Suits scope uses)
    (h : walk uses r none line = some next) :
    r.read (expand scope none (line ++ ['\n'])) = next.step '\n' := by
  rw [expand_line (scan_of_walk h), Go.Reader.read_append, read_expand hsuits h]
  rfl

theorem read_expandLines
    (hsuits : Suits scope uses)
    (h : walkLines uses r lines = some last) :
    r.read (expandLines scope lines) = last := by
  induction lines generalizing r with
  | nil =>
      cases h
      rfl
  | cons line rest ih =>
      obtain ⟨next, hwalk, hrest⟩ := exists_of_walkLines_cons h
      rw [expandLines_cons, Go.Reader.read_append, read_line hsuits hwalk, ih hrest]

theorem endsLine_expandLines
    (scope : Scope)
    (h : walkLines uses r lines = some last) :
    Go.EndsLine (expandLines scope lines) := by
  induction lines generalizing r with
  | nil => simp [Go.EndsLine, expandLines]
  | cons line rest ih =>
      obtain ⟨next, hwalk, hrest⟩ := exists_of_walkLines_cons h
      rw [expandLines_cons, expand_line (scan_of_walk hwalk)]
      exact (Go.endsLine_concat _).append (ih hrest)

/-- Some lines of a template, after so many others, begin at the top level and with a part. -/
def Begins (scope : Scope) (uses : Uses) (r : Go.Reader) (lines : List (List Char)) (count : Nat)
    (part : List Char) : Prop :=
  walkLines uses r (lines.take count) = some .top ∧
    ∃ more, expandLines scope (lines.drop count) = part ++ more

theorem begins_of_line
    {count : Nat}
    {rest : List (List Char)}
    {part : List Char}
    (hdrop : lines.drop count = line :: rest)
    (hwalk : walkLines uses r (lines.take count) = some .top)
    (hpart : expand scope none (line ++ ['\n']) = part) :
    Begins scope uses r lines count part :=
  ⟨hwalk, expandLines scope rest, by rw [hdrop, expandLines_cons, hpart]⟩

/-- What begins at the top level of the template does so in the text. -/
theorem Begins.holds
    {count : Nat}
    {part : List Char}
    (hsuits : Suits scope uses)
    (h : Begins scope uses r lines count part) :
    Go.Holds r (expandLines scope lines) part := by
  obtain ⟨hwalk, more, hmore⟩ := h
  have hsplit : expandLines scope lines =
      expandLines scope (lines.take count) ++ (part ++ more) := by
    rw [← hmore]
    unfold expandLines
    rw [← List.flatMap_append, List.take_append_drop]
  have hself : Go.Holds .top (part ++ more) (part ++ more) := Go.holds_self _
  rw [hsplit]
  refine .append_left (endsLine_expandLines scope hwalk) ?_
  rw [read_expandLines hsuits hwalk]
  exact hself.of_append

/-! ## Rendering -/

/-- Nodes render to lines that lead a reader from one place to another and hold some parts at the
top level. -/
def Renders (scope : Scope) (nodes : List Node) (before after : Go.Reader)
    (parts : List (List Char)) : Prop :=
  ∃ text, renderAll scope nodes = some text ∧ Go.EndsLine text.toList ∧
    before.read text.toList = after ∧ ∀ part ∈ parts, Go.Holds before text.toList part

/-- Lines that can be walked through render to a text that leads a reader the same way. -/
theorem renders_code
    {lines : List String}
    {parts : List (List Char)}
    (hsuits : Suits scope uses)
    (h : walkLines uses r (lines.map String.toList) = some last)
    (hparts : ∀ part ∈ parts, ∃ count, Begins scope uses r (lines.map String.toList) count part) :
    Renders scope (code lines) r last parts := by
  refine ⟨_, renderAll_code_eq hsuits.fills (lines_of_walkLines h), ?_, ?_, ?_⟩
  · rw [String.toList_ofList]
    exact endsLine_expandLines scope h
  · rw [String.toList_ofList]
    exact read_expandLines hsuits h
  · intro part hpart
    obtain ⟨count, hcount⟩ := hparts part hpart
    rw [String.toList_ofList]
    exact hcount.holds hsuits

theorem Renders.append
    {first second : List Node}
    {parts : List (List Char)}
    (hfirst : Renders scope first r next [])
    (hsecond : Renders scope second next last parts) :
    Renders scope (first ++ second) r last parts := by
  obtain ⟨s, hs, hends, rfl, -⟩ := hfirst
  obtain ⟨t, ht, hends', rfl, hparts⟩ := hsecond
  refine ⟨s ++ t, renderAll_append_eq hs ht, ?_, ?_, ?_⟩
  · rw [String.toList_append]
    exact hends.append hends'
  · rw [String.toList_append, Go.Reader.read_append]
  · intro part hpart
    rw [String.toList_append]
    exact (hparts part hpart).append_left hends

/-- A loop leads the reader back if each turn of it does. -/
theorem renders_loop
    {item : String}
    {items : Expr}
    {body : List Node}
    {values : List Value}
    (hitems : items.eval scope = some (.list values))
    (hbody : ∀ value ∈ values, ∀ progress : Value,
      Renders ((item, value) :: ("loop", progress) :: scope) body r r []) :
    Renders scope [.loop item items body []] r r [] := by
  have hnil : Go.EndsLine [] ∧ r.read [] = r := ⟨by simp [Go.EndsLine], rfl⟩
  obtain ⟨text, htext, hends, hread⟩ :=
    exists_render_loop (P := fun cs => Go.EndsLine cs ∧ r.read cs = r) hitems hnil
      (fun first second hfirst hsecond =>
        ⟨hfirst.1.append hsecond.1, by rw [Go.Reader.read_append, hfirst.2, hsecond.2]⟩)
      (fun value hvalue progress => by
        obtain ⟨text, htext, hends, hread, -⟩ := hbody value hvalue progress
        exact ⟨text, htext, hends, hread⟩)
      ⟨"", (rfl : renderAll scope [] = some ""), hnil⟩
  exact ⟨text, by simp [renderAll, htext], hends, hread, by simp⟩

end Template
end GormForge
