import GormForge.Template.Library
import Mathlib.Data.List.Basic
import Mathlib.Tactic.Common

/-!
# Texts with holes

**Algorithm.**  A text with holes is scanned from left to right; every hole has to be closed
and to have one of the known names.  Lines are scanned one by one.

**Results.**
* `renderAll_nodesOf_eq`: a text with known holes renders to itself with its holes filled when the
  known names have texts.
* `renderAll_code_eq`: lines with known holes render line by line.
* `exists_render_loop`: a loop renders when its body does, to the texts of its turns.
-/

namespace GormForge
namespace Template

variable {scope : Scope}
variable {known : List (List Char)}
variable {cs rest : List Char}

/-! ## Scanning -/

/-- Whether all holes of a text have known names; inside a hole, with the part of its name that
was read, in reverse. -/
def scan (known : List (List Char)) : Option (List Char) → List Char → Bool
  | none, [] => true
  | none, c :: cs => if c = '‹' then scan known (some []) cs else scan known none cs
  | some _, [] => false
  | some name, c :: cs =>
    if c = '‹' then false
    else if c = '›' then known.contains name.reverse && scan known none cs
    else scan known (some (c :: name)) cs

/-- The texts that are scanned without complaint, character by character. -/
inductive Scanned (known : List (List Char)) : Option (List Char) → List Char → Prop
  | done : Scanned known none []
  | opens {cs : List Char}
      (h : Scanned known (some []) cs) :
      Scanned known none ('‹' :: cs)
  | text {c : Char} {cs : List Char}
      (hopen : c ≠ '‹')
      (h : Scanned known none cs) :
      Scanned known none (c :: cs)
  | closes {name cs : List Char}
      (hname : name.reverse ∈ known)
      (h : Scanned known none cs) :
      Scanned known (some name) ('›' :: cs)
  | reads {c : Char} {name cs : List Char}
      (hopen : c ≠ '‹')
      (hclose : c ≠ '›')
      (h : Scanned known (some (c :: name)) cs) :
      Scanned known (some name) (c :: cs)

theorem scanned_of_scan
    {state : Option (List Char)}
    (h : scan known state cs = true) :
    Scanned known state cs := by
  induction cs generalizing state with
  | nil =>
      cases state with
      | none => exact .done
      | some name => cases h
  | cons c cs ih =>
      cases state with
      | none =>
          simp only [scan] at h
          split at h
          case isTrue hopen =>
              subst hopen
              exact .opens (ih h)
          case isFalse hopen => exact .text hopen (ih h)
      | some name =>
          simp only [scan] at h
          split at h
          case isTrue => cases h
          case isFalse hopen =>
              split at h
              case isTrue hclose =>
                  subst hclose
                  rw [Bool.and_eq_true, List.contains_iff_mem] at h
                  exact .closes h.1 (ih h.2)
              case isFalse hclose => exact .reads hopen hclose (ih h)

/-- A text that was scanned may be followed by another one. -/
theorem scan_append
    {state : Option (List Char)}
    (h : scan known state cs = true) :
    scan known state (cs ++ rest) = scan known none rest := by
  have hscanned := scanned_of_scan h
  clear h
  induction hscanned with
  | done => rfl
  | opens _ ih => simpa [scan] using ih
  | text hopen _ ih => simpa [scan, hopen] using ih
  | closes hname _ ih => simpa [scan, hname] using ih
  | reads hopen hclose _ ih => simpa [scan, hopen, hclose] using ih

/-! ## Filling -/

/-- A hole with the name can be filled. -/
def Fills (scope : Scope) (name : List Char) : Prop :=
  (((nameExpr name).eval scope).bind Value.shown).isSome = true

instance (scope : Scope) (name : List Char) : Decidable (Fills scope name) :=
  inferInstanceAs (Decidable (_ = true))

/-- What a hole with the name is filled with. -/
def filling (scope : Scope) (name : List Char) : String :=
  (((nameExpr name).eval scope).bind Value.shown).getD ""

/-- A text with its holes filled; inside a hole, with the part of its name that was read, in
reverse. -/
def expand (scope : Scope) : Option (List Char) → List Char → List Char
  | _, [] => []
  | none, c :: cs =>
    if c = '‹' then expand scope (some []) cs else braced c :: expand scope none cs
  | some name, c :: cs =>
    if c = '›' then (filling scope name.reverse).toList ++ expand scope none cs
    else expand scope (some (c :: name)) cs

/-- Texts are filled one after the other. -/
theorem expand_append
    {state : Option (List Char)}
    (h : scan known state cs = true) :
    expand scope state (cs ++ rest) = expand scope state cs ++ expand scope none rest := by
  have hscanned := scanned_of_scan h
  clear h
  induction hscanned with
  | done => rfl
  | opens _ ih => simpa [expand] using ih
  | text hopen _ ih => simpa [expand, hopen] using ih
  | closes _ _ ih => simpa [expand] using ih
  | reads _ hclose _ ih => simpa [expand, hclose] using ih

/-- A part of a text that begins inside a hole, with the hole filled. -/
def expandPart (scope : Scope) (lead part : List Char) : List Char :=
  match Text.splitFirst? ['›'] part with
  | some (name, after) => (filling scope (lead ++ name)).toList ++ after.map braced
  | none => part.map braced

/-- A part of a text that begins inside a hole and comes to its end. -/
def Closes (known : List (List Char)) (lead part : List Char) : Prop :=
  ∃ name after, Text.splitFirst? ['›'] part = some (name, after) ∧ lead ++ name ∈ known

section Parts

variable {c : Char}
variable {lead part : List Char}

theorem splitFirst?_close
    (part : List Char) :
    Text.splitFirst? ['›'] ('›' :: part) = some ([], part) := by
  simp [Text.splitFirst?, Text.afterPrefix?]

theorem splitFirst?_cons
    (hclose : c ≠ '›')
    (part : List Char) :
    Text.splitFirst? ['›'] (c :: part) =
      (Text.splitFirst? ['›'] part).map fun found => (c :: found.1, found.2) := by
  simp [Text.splitFirst?, Text.afterPrefix?, hclose.symm]

theorem closes_close
    (hname : lead ∈ known)
    (part : List Char) :
    Closes known lead ('›' :: part) :=
  ⟨[], part, splitFirst?_close part, by simpa using hname⟩

theorem expandPart_close
    (scope : Scope)
    (lead part : List Char) :
    expandPart scope lead ('›' :: part) = (filling scope lead).toList ++ part.map braced := by
  simp [expandPart, splitFirst?_close]

theorem Closes.cons
    (h : Closes known (lead ++ [c]) part)
    (hclose : c ≠ '›') :
    Closes known lead (c :: part) := by
  obtain ⟨name, after, hfound, hmem⟩ := h
  exact ⟨c :: name, after, by simp [splitFirst?_cons hclose, hfound], by simpa using hmem⟩

theorem Closes.expandPart_cons
    (h : Closes known (lead ++ [c]) part)
    (hclose : c ≠ '›') :
    expandPart scope lead (c :: part) = expandPart scope (lead ++ [c]) part := by
  obtain ⟨name, after, hfound, -⟩ := h
  simp [expandPart, splitFirst?_cons hclose, hfound]

end Parts

/-- The parts of a text that was scanned close their holes, and filling those is filling the
holes of the text. -/
theorem closes_of_scan
    (scope : Scope)
    {state : Option (List Char)}
    (h : scan known state cs = true) :
    ∃ first parts,
      cs.splitOn '‹' = first :: parts ∧
        (∀ part ∈ parts, Closes known [] part) ∧
        (∀ name, state = some name → Closes known name.reverse first) ∧
        expand scope state cs =
          state.elim (first.map braced) (fun name => expandPart scope name.reverse first) ++
            parts.flatMap (expandPart scope []) := by
  have hscanned := scanned_of_scan h
  clear h
  induction hscanned with
  | done => exact ⟨[], [], rfl, by simp, by simp, rfl⟩
  | opens _ ih =>
      obtain ⟨first, parts, hparts, hclosed, hfirst, htext⟩ := ih
      refine ⟨[], first :: parts, ?_, ?_, by simp, ?_⟩
      · simp [List.splitOn_cons_eq_if_modifyHead, hparts]
      · exact List.forall_mem_cons.mpr ⟨hfirst [] rfl, hclosed⟩
      · rw [expand, if_pos rfl, htext]
        rfl
  | @text c cs hopen _ ih =>
      obtain ⟨first, parts, hparts, hclosed, -, htext⟩ := ih
      refine ⟨c :: first, parts, ?_, hclosed, by simp, ?_⟩
      · simp [List.splitOn_cons_eq_if_modifyHead, hopen, hparts]
      · rw [expand, if_neg hopen, htext]
        rfl
  | closes hname _ ih =>
      obtain ⟨first, parts, hparts, hclosed, -, htext⟩ := ih
      refine ⟨'›' :: first, parts, ?_, hclosed, ?_, ?_⟩
      · simp [List.splitOn_cons_eq_if_modifyHead, hparts]
      · rintro _ ⟨rfl⟩
        exact closes_close hname first
      · rw [expand, if_pos rfl, htext]
        simp [expandPart_close]
  | @reads c name cs hopen hclose _ ih =>
      obtain ⟨first, parts, hparts, hclosed, hfirst, htext⟩ := ih
      have hcloses : Closes known (name.reverse ++ [c]) first := by
        simpa using hfirst (c :: name) rfl
      refine ⟨c :: first, parts, ?_, hclosed, ?_, ?_⟩
      · simp [List.splitOn_cons_eq_if_modifyHead, hopen, hparts]
      · rintro _ ⟨rfl⟩
        exact hcloses.cons hclose
      · rw [expand, if_neg hclose, htext]
        simp [hcloses.expandPart_cons hclose]

/-! ## Rendering -/

theorem isSome_renderAll_cons
    (node : Node)
    (nodes : List Node) :
    (renderAll scope (node :: nodes)).isSome =
      ((node.render scope).isSome && (renderAll scope nodes).isSome) := by
  simp only [renderAll]
  cases node.render scope <;> cases renderAll scope nodes <;> rfl

theorem isSome_renderAll_append
    (first second : List Node) :
    (renderAll scope (first ++ second)).isSome =
      ((renderAll scope first).isSome && (renderAll scope second).isSome) := by
  induction first with
  | nil => simp [renderAll]
  | cons node nodes ih =>
      rw [List.cons_append, isSome_renderAll_cons, isSome_renderAll_cons, ih, Bool.and_assoc]

/-- Nodes render one after the other. -/
theorem renderAll_append_eq
    {first second : List Node}
    {s t : String}
    (hfirst : renderAll scope first = some s)
    (hsecond : renderAll scope second = some t) :
    renderAll scope (first ++ second) = some (s ++ t) := by
  induction first generalizing s with
  | nil =>
      cases hfirst
      simpa using hsecond
  | cons node nodes ih =>
      simp only [renderAll] at hfirst
      cases hnode : node.render scope with
      | none => simp [hnode] at hfirst
      | some u =>
          cases hnodes : renderAll scope nodes with
          | none => simp [hnode, hnodes] at hfirst
          | some v =>
              simp only [hnode, hnodes, Option.some.injEq] at hfirst
              simp only [List.cons_append, renderAll, hnode, ih hnodes, ← hfirst,
                String.append_assoc]

theorem exists_of_renderAll_append
    {first second : List Node}
    {text : String}
    (h : renderAll scope (first ++ second) = some text) :
    ∃ s t, renderAll scope first = some s ∧ renderAll scope second = some t ∧ text = s ++ t := by
  have hsome := @isSome_renderAll_append scope first second
  rw [h, Option.isSome_some, eq_comm, Bool.and_eq_true] at hsome
  obtain ⟨s, hs⟩ := Option.isSome_iff_exists.mp hsome.1
  obtain ⟨t, ht⟩ := Option.isSome_iff_exists.mp hsome.2
  rw [renderAll_append_eq hs ht, Option.some.injEq] at h
  exact ⟨s, t, hs, ht, h.symm⟩

theorem renderAll_textNode
    (scope : Scope)
    (cs : List Char) :
    renderAll scope (textNode cs) = some (String.ofList (cs.map braced)) := by
  unfold textNode
  split
  · next h => simp [h, renderAll]
  · simp [renderAll, Node.render]

theorem renderAll_holesAfter
    {part : List Char}
    (hknown : ∀ name ∈ known, Fills scope name)
    (h : Closes known [] part) :
    renderAll scope (holesAfter part) = some (String.ofList (expandPart scope [] part)) := by
  obtain ⟨name, after, hsplit, hmem⟩ := h
  obtain ⟨text, htext⟩ := Option.isSome_iff_exists.mp (hknown name (by simpa using hmem))
  have hnode : (Node.output (nameExpr name)).render scope = some text := htext
  simp only [holesAfter, hsplit, renderAll, hnode, renderAll_textNode, expandPart, filling,
    List.nil_append, htext, Option.getD_some]
  rw [String.ofList_append, String.ofList_toList]

/-- A text with known holes renders to itself with its holes filled. -/
theorem renderAll_nodesOf_eq
    (hknown : ∀ name ∈ known, Fills scope name)
    (h : scan known none cs = true) :
    renderAll scope (nodesOf cs) = some (String.ofList (expand scope none cs)) := by
  obtain ⟨first, parts, hparts, hclosed, -, htext⟩ := closes_of_scan scope h
  have hrest : renderAll scope (parts.flatMap holesAfter) =
      some (String.ofList (parts.flatMap (expandPart scope []))) := by
    clear hparts htext
    induction parts with
    | nil => rfl
    | cons part parts ih =>
        rw [List.flatMap_cons, List.flatMap_cons, String.ofList_append]
        exact renderAll_append_eq
          (renderAll_holesAfter hknown (hclosed part (List.mem_cons_self ..)))
          (ih fun other hother => hclosed other (List.mem_cons_of_mem _ hother))
  unfold nodesOf
  rw [hparts, htext, String.ofList_append]
  exact renderAll_append_eq (renderAll_textNode scope first) hrest

/-- A text with known holes renders. -/
theorem renderAll_nodesOf
    (hknown : ∀ name ∈ known, Fills scope name)
    (h : scan known none cs = true) :
    (renderAll scope (nodesOf cs)).isSome = true := by
  rw [renderAll_nodesOf_eq hknown h, Option.isSome_some]

/-! ## Lines -/

/-- All lines have known holes. -/
def Lines (known : List (List Char)) (lines : List String) : Prop :=
  ∀ line ∈ lines, scan known none line.toList = true

theorem lines_nil :
    Lines known [] := by
  simp [Lines]

theorem lines_cons
    {lines : List String}
    (h : scan known none cs = true)
    (hlines : Lines known lines) :
    Lines known (String.ofList cs :: lines) := by
  intro line hline
  rcases List.mem_cons.mp hline with rfl | hline
  · rw [String.toList_ofList]
    exact h
  · exact hlines line hline

/-- Lines with their holes filled. -/
def expandLines (scope : Scope) (lines : List (List Char)) : List Char :=
  lines.flatMap fun line => expand scope none (line ++ ['\n'])

theorem expandLines_cons
    (scope : Scope)
    (line : List Char)
    (rest : List (List Char)) :
    expandLines scope (line :: rest) =
      expand scope none (line ++ ['\n']) ++ expandLines scope rest :=
  List.flatMap_cons

theorem expand_line
    {line : List Char}
    (h : scan known none line = true) :
    expand scope none (line ++ ['\n']) = expand scope none line ++ ['\n'] :=
  expand_append h

/-- Filling lines one by one is filling all of them at once. -/
theorem expand_flatMap
    (scope : Scope)
    {lines : List (List Char)}
    (h : ∀ line ∈ lines, scan known none line = true) :
    scan known none (lines.flatMap (· ++ ['\n'])) = true ∧
      expand scope none (lines.flatMap (· ++ ['\n'])) = expandLines scope lines := by
  induction lines with
  | nil => exact ⟨rfl, rfl⟩
  | cons line lines ih =>
      obtain ⟨hline, hlines⟩ := List.forall_mem_cons.mp h
      obtain ⟨hrest, htext⟩ := ih hlines
      rw [List.flatMap_cons, expandLines_cons, expand_line hline, List.append_assoc,
        scan_append hline, expand_append hline, List.append_assoc, ← htext]
      exact ⟨hrest, rfl⟩

/-- Lines with known holes render line by line. -/
theorem renderAll_code_eq
    {lines : List String}
    (hknown : ∀ name ∈ known, Fills scope name)
    (h : Lines known lines) :
    renderAll scope (code lines) =
      some (String.ofList (expandLines scope (lines.map String.toList))) := by
  obtain ⟨hscan, htext⟩ := expand_flatMap scope (List.forall_mem_map.mpr h)
  have hjoin : (String.join (lines.map (· ++ "\n"))).toList =
      (lines.map String.toList).flatMap (· ++ ['\n']) := by
    rw [String.toList_join, List.flatMap_map, List.flatMap_map]
    simp
  unfold code
  rw [hjoin, renderAll_nodesOf_eq hknown hscan, htext]

/-- A text begins with the first line of its template. -/
theorem exists_first
    {line text : String}
    {lines : List String}
    {nodes : List Node}
    (hknown : ∀ name ∈ known, Fills scope name)
    (hlines : Lines known (line :: lines))
    (h : renderAll scope (code (line :: lines) ++ nodes) = some text) :
    ∃ rest, text.toList = expand scope none (line.toList ++ ['\n']) ++ rest := by
  obtain ⟨s, t, hs, -, rfl⟩ := exists_of_renderAll_append h
  rw [renderAll_code_eq hknown hlines, Option.some.injEq] at hs
  subst hs
  exact ⟨expandLines scope (lines.map String.toList) ++ t.toList, by simp [expandLines_cons]⟩

/-- Lines with known holes render. -/
theorem renderAll_code
    {lines : List String}
    (hknown : ∀ name ∈ known, Fills scope name)
    (h : Lines known lines) :
    (renderAll scope (code lines)).isSome = true := by
  rw [renderAll_code_eq hknown h, Option.isSome_some]

/-! ## Loops -/

/-- A loop renders when its body renders for every item; what holds of the texts of its turns and
goes over to texts put together holds of its text. -/
theorem exists_render_loop
    {item : String}
    {items : Expr}
    {body empty : List Node}
    {values : List Value}
    {P : List Char → Prop}
    (hitems : items.eval scope = some (.list values))
    (hnil : P [])
    (happend : ∀ first second, P first → P second → P (first ++ second))
    (hbody : ∀ value ∈ values, ∀ progress : Value, ∃ text,
      renderAll ((item, value) :: ("loop", progress) :: scope) body = some text ∧ P text.toList)
    (hempty : ∃ text, renderAll scope empty = some text ∧ P text.toList) :
    ∃ text, Node.render scope (.loop item items body empty) = some text ∧ P text.toList := by
  have hturns : ∀ (count : Nat) (entries : List (Value × Nat)),
      (∀ entry ∈ entries, entry.1 ∈ values) →
      ∃ texts, (entries.mapM fun entry =>
          renderAll ((item, entry.1) :: ("loop", progress entry.2 count) :: scope) body) =
            some texts ∧
        P (String.join texts).toList := by
    intro count entries hentries
    induction entries with
    | nil => exact ⟨[], rfl, hnil⟩
    | cons entry entries ih =>
        obtain ⟨text, htext, hfirst⟩ :=
          hbody entry.1 (hentries entry (List.mem_cons_self ..)) (progress entry.2 count)
        obtain ⟨texts, htexts, hrest⟩ :=
          ih fun other hother => hentries other (List.mem_cons_of_mem _ hother)
        refine ⟨text :: texts, by simp [List.mapM_cons, htext, htexts], ?_⟩
        rw [String.toList_join, List.flatMap_cons, ← String.toList_join]
        exact happend _ _ hfirst hrest
  obtain ⟨texts, htexts, hall⟩ := hturns values.length values.zipIdx
    fun entry hentry => List.fst_mem_of_mem_zipIdx hentry
  simp only [Node.render, hitems, Option.bind_some, Value.items?]
  cases values with
  | nil => exact hempty
  | cons value values => exact ⟨String.join texts, by simp only [htexts, Option.map_some], hall⟩

end Template
end GormForge
