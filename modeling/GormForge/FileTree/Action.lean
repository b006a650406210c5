import GormForge.FileTree.Basic

/-!
# Changing a file tree

Actions that change a tree and may fail; a tree keeps what an action did before it failed.

**Results.**  `writeText` writes a file whose directory exists, `createDirectories` makes
a directory and all above it.
-/

namespace GormForge

/-- An action on a file tree that may fail. -/
abbrev FileAction (ε α : Type) := ExceptT ε (StateM FileTree) α

namespace FileTree

/-- The segments without the empty ones at the end. -/
def withoutTrailing (parts : List (List Char)) : List (List Char) :=
  (parts.reverse.dropWhile (· == [])).reverse

/-- The location that a new directory would take. -/
def resolveNew (tree : FileTree) (p : Path) : Except IoError Location :=
  match checkText p with
  | .error e => .error e
  | .ok () => tree.walk (tree.startOf p) (withoutTrailing p.segments)

/-- The tree with a new directory whose parent exists. -/
def makeDirectory (tree : FileTree) (p : Path) : Except IoError FileTree :=
  match tree.resolveNew p with
  | .error e => .error e
  | .ok location =>
    match tree.get? location with
    | some _ => .error .alreadyExists
    | none => .ok (tree.place location .directory)

/-- The tree with a directory and those above it, given from the innermost outward. -/
def makeDirectories (tree : FileTree) : List Path → Except IoError Unit × FileTree
  | [] => (.error .notFound, tree)
  | p :: above =>
    if p.text.isEmpty then
      (.ok (), tree)
    else
      match tree.makeDirectory p with
      | .ok made => (.ok (), made)
      | .error .notFound =>
        match makeDirectories tree above with
        | (.error e, made) => (.error e, made)
        | (.ok (), made) => settle made p
      | .error e => if tree.isDirectory p then (.ok (), tree) else (.error e, tree)
where
  /-- Make a directory whose parent was just made. -/
  settle (tree : FileTree) (p : Path) : Except IoError Unit × FileTree :=
    match tree.makeDirectory p with
    | .ok made => (.ok (), made)
    | .error e => if tree.isDirectory p then (.ok (), tree) else (.error e, tree)

/-- The tree with a file written anew. -/
def write (tree : FileTree) (p : Path) (content : Content) : Except IoError FileTree :=
  if p.endsInSlash then
    match tree.resolveNew p with
    | .error e => .error e
    | .ok _ => .error .isADirectory
  else
    match tree.resolve p with
    | .error e => .error e
    | .ok location =>
      match tree.get? location with
      | some .directory => .error .isADirectory
      | _ => .ok (tree.place location (.file content))

/-- The tree with a directory, or with a file and the directories above it. -/
def install (tree : FileTree) (p : Path) (content : Option Content) : FileTree :=
  match content with
  | none => (tree.makeDirectories (p :: p.parents)).2
  | some content =>
    let made := (tree.makeDirectories p.parents).2
    match made.write p content with
    | .ok written => written
    | .error _ => made

/-! ## Actions -/

/-- Make a directory and all above it. -/
def createDirectories (p : Path) : FileAction IoError Unit :=
  fun tree => tree.makeDirectories (p :: p.parents)

/-- Write a file whose directory exists. -/
def writeText (p : Path) (s : String) : FileAction IoError Unit :=
  fun tree =>
    match tree.write p (.text s) with
    | .ok written => (.ok (), written)
    | .error e => (.error e, tree)

/-- Look at the tree. -/
def view {ε α : Type} (f : FileTree → α) : FileAction ε α :=
  fun tree => (.ok (f tree), tree)

/-- Look at the tree for something that may be missing. -/
def viewE {ε α : Type} (f : FileTree → Except ε α) : FileAction ε α :=
  fun tree => (f tree, tree)

/-- Reword the failures of an action. -/
def adapt {ε ε' α : Type} (f : ε → ε') (action : FileAction ε α) : FileAction ε' α :=
  fun tree =>
    match action tree with
    | (.ok a, after) => (.ok a, after)
    | (.error e, after) => (.error (f e), after)

/-- Take the failure of an action for its result. -/
def attempt {ε ε' α : Type} (action : FileAction ε α) : FileAction ε' (Except ε α) :=
  fun tree =>
    match action tree with
    | (result, after) => (.ok result, after)

/-! ## Running actions -/

section Running

variable {ε ε' α β : Type}
variable {action : FileAction ε α}
variable {next : α → FileAction ε β}
variable {tree after : FileTree}

theorem pure_apply
    (a : α)
    (tree : FileTree) :
    (pure a : FileAction ε α) tree = (.ok a, tree) := by
  rfl

theorem bind_ok
    {a : α}
    (h : action tree = (.ok a, after)) :
    (action >>= next) tree = next a after := by
  simp only [bind, ExceptT.bind, ExceptT.mk, StateT.bind, h]
  rfl

theorem bind_error
    {e : ε}
    (h : action tree = (.error e, after)) :
    (action >>= next) tree = (.error e, after) := by
  simp only [bind, ExceptT.bind, ExceptT.mk, StateT.bind, h]
  rfl

theorem bind_eq_ok_iff
    {b : β} :
    (action >>= next) tree = (.ok b, after) ↔
      ∃ a middle, action tree = (.ok a, middle) ∧ next a middle = (.ok b, after) := by
  rcases h : action tree with ⟨e | a, middle⟩
  · rw [bind_error h]
    constructor
    · intro hb
      cases hb
    · rintro ⟨a, middle, ha, -⟩
      cases ha
  · rw [bind_ok h]
    constructor
    · intro hb
      exact ⟨a, middle, rfl, hb⟩
    · rintro ⟨a, middle, ha, hb⟩
      cases ha
      exact hb

theorem attempt_apply
    (action : FileAction ε α)
    (tree : FileTree) :
    (attempt action : FileAction ε' (Except ε α)) tree =
      (.ok (action tree).1, (action tree).2) := by
  unfold attempt
  rcases action tree with ⟨result, after⟩
  rfl

theorem adapt_eq_ok_iff
    {f : ε → ε'}
    {a : α} :
    adapt f action tree = (.ok a, after) ↔ action tree = (.ok a, after) := by
  unfold adapt
  rcases action tree with ⟨e | b, middle⟩
  · constructor <;> intro h <;> cases h
  · constructor <;> intro h <;> cases h <;> rfl

theorem adapt_eq_error_iff
    {f : ε → ε'}
    {e' : ε'} :
    adapt f action tree = (.error e', after) ↔
      ∃ e, action tree = (.error e, after) ∧ e' = f e := by
  unfold adapt
  rcases action tree with ⟨e | b, middle⟩
  · constructor
    · intro h
      cases h
      exact ⟨e, rfl, rfl⟩
    · rintro ⟨_, h, rfl⟩
      cases h
      rfl
  · constructor
    · intro h
      cases h
    · rintro ⟨_, h, -⟩
      cases h

end Running

theorem exists_of_isOk
    {ε α : Type}
    {result : Except ε α}
    (h : result.isOk = true) :
    ∃ a, result = .ok a := by
  cases result with
  | error e => cases h
  | ok a => exact ⟨a, rfl⟩

theorem eq_ok_of_toOption
    {ε α : Type}
    {result : Except ε α}
    {a : α}
    (h : result.toOption = some a) :
    result = .ok a := by
  cases result with
  | error e => cases h
  | ok b => exact congrArg _ (Option.some.inj h)

theorem eq_error_of_match
    {ε α : Type}
    {result : Except ε α}
    {e : ε}
    (h : (match result with | .error other => some other | .ok _ => none) = some e) :
    result = .error e := by
  cases result with
  | error other => exact congrArg _ (Option.some.inj h)
  | ok a => cases h

end FileTree
end GormForge
