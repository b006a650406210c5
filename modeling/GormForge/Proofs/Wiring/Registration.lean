import GormForge.Proofs.Naming.Skeleton
import GormForge.Proofs.Text.Splitting
import GormForge.Proofs.Wiring.Edits
import GormForge.Proofs.Wiring.Unplaced

/-!
# Registered repositories

Where the entries of repositories stand after they were patched in.

**Input.**  A content in which the marker of repositories is a single line, a package, and names of
structs.

**Algorithm.**  An entry is looked for anywhere in the content, but it is registered only as a line
of its own.  So an entry is taken for registered when it ends a longer name, or stands in a comment.
Among the entries of one package this does not happen: what follows the last dot of an entry is
the whole name of its constructor.  Hence entries that are not in the content all go in, one below
the other, and each one moves the marker down by one line.

**Results.**
* `GoIn.insert`: when one of such insertions went in, the others can go in one line further down.
* `patchAll_inOrder`: insertions that do not bring in one another stand in their order.
* `eq_of_isInfix_lineFor`: the entry of a repository occurs in no entry but its own.
* `patchContent_registers_iff`: an entry that occurs in a content is registered if it was before,
  and any other one goes in.
* `patchAll_repositories`: the entries of a batch stand where their outcomes say.
-/

namespace GormForge

open Text

/-! ## Words -/

namespace Go

variable {s : String}

theorem noBlank_of_wordChars
    (h : ∀ c ∈ s.toList, isWordChar c = true) :
    ∀ c ∈ s.toList, isBlank c = false := by
  intro c hc
  have hascii : c.toNat < 0x80 := by
    rcases Bool.or_eq_true _ _ ▸ h c hc with halphanum | hunderscore
    · exact ascii_of_isAlphanum halphanum
    · rw [eq_of_beq hunderscore]
      decide
  have hall : ∀ code < 0x80, isWordChar (Char.ofNat code) = true →
      isBlank (Char.ofNat code) = false := by
    decide +kernel
  have hword := hall c.toNat hascii
  rw [Char.ofNat_toNat] at hword
  exact hword (h c hc)

end Go

/-! ## Insertions that go in one after the other -/

namespace Insertion

variable {insertion other : Insertion}
variable {insertions : List Insertion}
variable {content patched : String}
variable {marker : List Char}
variable {place : Nat}

theorem trimChars_lineFor
    (insertion : Insertion)
    (marker : List Char) :
    trimChars (insertion.lineFor marker) = trimChars insertion.text.toList := by
  unfold lineFor
  split
  · exact trimChars_append_return _
  · rfl

/-- What is present after a line was put in was there before, or came with that line. -/
theorem isPresent_insertAbove_iff
    {line cs : List Char} :
    insertion.isPresent (insertAbove place line cs) = true ↔
      insertion.isPresent cs = true ∨ insertion.isPresent line = true := by
  simp only [isPresent_iff]
  constructor
  · rintro ⟨key, hkey, hin⟩
    exact ((isInfix_insertAbove_iff (mem_keyLines hkey).2).mp hin).imp
      (fun h => ⟨key, hkey, h⟩) fun h => ⟨key, hkey, h⟩
  · rintro (⟨key, hkey, hin⟩ | ⟨key, hkey, hin⟩)
    · exact ⟨key, hkey, (isInfix_insertAbove_iff (mem_keyLines hkey).2).mpr (Or.inl hin)⟩
    · exact ⟨key, hkey, (isInfix_insertAbove_iff (mem_keyLines hkey).2).mpr (Or.inr hin)⟩

/-- Insertions of one line each that can go in above a marker, one below the other: none of them is
present, none brings in a marker, and none makes a later one present. -/
structure GoIn (insertions : List Insertion) (marker : List Char) (place : Nat)
    (content : List Char) : Prop where
  marked : (pieces content)[place]? = some marker
  only : ∀ insertion ∈ insertions, IsOnlyLineAt insertion.markerText place content
  absent : ∀ insertion ∈ insertions, insertion.isPresent content = false
  noFeed : ∀ insertion ∈ insertions, '\n' ∉ insertion.text.toList
  clear : ∀ insertion ∈ insertions, ∀ other ∈ insertions,
    trimChars insertion.text.toList ≠ other.markerText
  apart : insertions.Pairwise fun earlier later =>
    later.isPresent (earlier.lineFor marker) = false

/-- When the first insertion went in, the others can go in one line further down. -/
theorem GoIn.insert
    {cs : List Char}
    (h : GoIn (insertion :: insertions) marker place cs) :
    GoIn insertions marker (place + 1) (insertAbove place (insertion.lineFor marker) cs) := by
  obtain ⟨hlater, hapart⟩ := List.pairwise_cons.mp h.apart
  have hin := List.mem_cons_self (a := insertion) (l := insertions)
  have hsub : ∀ other ∈ insertions, other ∈ insertion :: insertions := fun _ =>
    List.mem_cons_of_mem insertion
  have hline := noFeed_lineFor (h.noFeed _ hin) marker
  constructor
  case marked =>
      have hbelow := getElem?_insertAbove h.marked (insertion.lineFor marker)
      rwa [pieces_of_noFeed hline, List.length_singleton] at hbelow
  case only =>
      intro other hother
      refine (h.only other (hsub other hother)).insert hline ?_
      rw [trimChars_lineFor]
      exact h.clear _ hin other (hsub other hother)
  case absent =>
      intro other hother
      rw [← Bool.not_eq_true, isPresent_insertAbove_iff, not_or]
      simp [h.absent other (hsub other hother), hlater other hother]
  case noFeed => exact fun other hother => h.noFeed other (hsub other hother)
  case clear =>
      exact fun first hfirst other hother =>
        h.clear first (hsub first hfirst) other (hsub other hother)
  case apart => exact hapart

/-- Such insertions stand in their order above the marker, and their outcomes say where. -/
theorem patchAll_inOrder
    (path : Path)
    (h : GoIn insertions marker place content.toList) :
    ∃ patched,
      patchAll path insertions content =
          .ok (patched, insertions.mapIdx fun k insertion =>
            ⟨path, insertion.text, .inserted (place + k + 1)⟩) ∧
        pieces patched.toList =
          (pieces content.toList).take place ++
            (insertions.map (·.lineFor marker) ++ (pieces content.toList).drop place) := by
  induction insertions generalizing content place with
  | nil => exact ⟨content, rfl, (List.take_append_drop place _).symm⟩
  | cons insertion rest ih =>
      have hin := List.mem_cons_self (a := insertion) (l := rest)
      obtain ⟨middle, hpatch, hmiddle⟩ :=
        exists_patchContent path (h.absent _ hin) (h.only _ hin) h.marked
      have hrest : GoIn rest marker (place + 1) middle.toList := hmiddle ▸ h.insert
      obtain ⟨patched, hall, hpatched⟩ := ih hrest
      refine ⟨patched, ?_, ?_⟩
      · refine patchAll_cons_eq_ok_iff.mpr ⟨middle, _, _, hpatch, hall, ?_⟩
        rw [List.mapIdx_cons]
        simp only [Nat.add_zero, Nat.add_right_comm place 1, Nat.add_assoc]
      · have hparts := pieces_insertAbove_of_noFeed
          (noFeed_lineFor (h.noFeed _ hin) marker) place content.toList
        have hlength : ((pieces content.toList).take place ++
            [insertion.lineFor marker]).length = place + 1 := by
          rw [List.length_append, List.length_singleton,
            List.length_take_of_le (Nat.le_of_lt (List.getElem?_eq_some_iff.mp h.marked).1)]
        rw [hpatched, hmiddle, hparts, List.append_cons, List.take_left' hlength,
          List.drop_left' hlength, List.map_cons, List.append_assoc, List.singleton_append,
          List.cons_append]

/-! ## Entries of one package -/

variable {package structName otherName : String}

theorem markerText_repository
    (package structName : String) :
    (repository package structName).markerText = repositoryMarker.toList := by
  show trimChars repositoryMarker.toList = repositoryMarker.toList
  decide +kernel

/-- An entry is no marker, as it ends in a comma. -/
theorem constructorText_ne_marker
    (package structName : String) :
    (constructorText package structName).toList ≠ repositoryMarker.toList := by
  intro h
  have hcomma : (constructorText package structName).toList =
      (package ++ ".New" ++ structName ++ "Db").toList ++ [','] := by
    simp [constructorText]
  have hmarker : repositoryMarker.toList.getLast? = some '=' := by decide +kernel
  rw [← h, hcomma, List.getLast?_concat] at hmarker
  cases hmarker

/-- What follows the last dot of an entry is the whole name of its constructor, so that no entry
ends another one of its package. -/
theorem eq_of_isInfix_lineFor
    (hpackage : ',' ∉ package.toList)
    (hstruct : ',' ∉ structName.toList ∧ '.' ∉ structName.toList)
    (hother : '.' ∉ otherName.toList)
    (h : (constructorText package otherName).toList <:+:
      (repository package structName).lineFor marker) :
    otherName = structName := by
  have hneedle : (constructorText package otherName).toList =
      (package.toList ++ '.' :: ("New".toList ++ (otherName.toList ++ "Db".toList))) ++ [','] := by
    simp [constructorText]
  obtain ⟨ending, hending, hline⟩ : ∃ ending, ',' ∉ ending ∧
      (repository package structName).lineFor marker =
        (("    ".toList ++ package.toList) ++
          '.' :: ("New".toList ++ (structName.toList ++ "Db".toList))) ++ [','] ++ ending := by
    unfold lineFor
    rw [toList_repository_eq]
    split
    · exact ⟨['\r'], by decide, by simp [constructorText]⟩
    · exact ⟨[], by simp, by simp [constructorText]⟩
  rw [hneedle, hline] at h
  have hentry := isInfix_of_append _ hending h
  -- the comma of the one entry is that of the other one
  rcases List.infix_concat_iff.mp hentry with hends | hinside
  · obtain ⟨_, heq, front, hfront⟩ := (List.suffix_concat_iff.mp hends).resolve_left (by simp)
    rw [← (List.append_inj' heq rfl).1, ← List.append_assoc] at hfront
    -- and so is the last dot
    have hsplit := splitLast?_of_notMem (front ++ package.toList)
      (show '.' ∉ "New".toList ++ (otherName.toList ++ "Db".toList) by simp [hother])
    rw [hfront, splitLast?_of_notMem _
      (show '.' ∉ "New".toList ++ (structName.toList ++ "Db".toList) by simp [hstruct.2]),
      Option.some.injEq, Prod.mk.injEq] at hsplit
    exact String.toList_inj.mp
      (List.append_cancel_right (List.append_cancel_left hsplit.2)).symm
  · have hcomma := hinside.subset (List.mem_append_right _ (List.mem_singleton_self ','))
    simp [hpackage, hstruct.1] at hcomma

/-- Which entries are registered after they were patched into a content with a single marker line.

An entry that does not occur in the content goes in as a line.  One that occurs is taken to be
present, and it is registered only if it was a line before. -/
theorem patchContent_registers_iff
    (path : Path)
    (hpackage : Go.isPackageName package = true)
    (hstruct : ∀ c ∈ structName.toList, Go.isWordChar c = true)
    (honly : IsOnlyLineAt repositoryMarker.toList place content.toList) :
    ∃ patched patch,
      (repository package structName).patchContent path content = .ok (patched, patch) ∧
        (((package ++ ".New" ++ structName ++ "Db,").toList <:+: content.toList ∧
            patch = .alreadyPresent ∧
            (HasLine (package ++ ".New" ++ structName ++ "Db,").toList patched.toList ↔
              HasLine (package ++ ".New" ++ structName ++ "Db,").toList content.toList)) ∨
          (¬ (package ++ ".New" ++ structName ++ "Db,").toList <:+: content.toList ∧
            patch = .inserted (place + 1) ∧
            HasLine (package ++ ".New" ++ structName ++ "Db,").toList patched.toList)) := by
  have hchars := (Go.isWord_iff.mp (Go.isWord_of_isPackageName hpackage)).2
  have hpackage' := Go.noBlank_of_wordChars hchars
  have hstruct' := Go.noBlank_of_wordChars hstruct
  have hpresent : (repository package structName).isPresent content.toList = true ↔
      (constructorText package structName).toList <:+: content.toList :=
    isPresent_repository_iff hpackage' hstruct'
  obtain ⟨marker, hmarker, -⟩ := honly.exists_part
  by_cases hin : (constructorText package structName).toList <:+: content.toList
  · refine ⟨content, .alreadyPresent, ?_, Or.inl ⟨hin, rfl, Iff.rfl⟩⟩
    rw [patchContent, if_pos (hpresent.mpr hin)]
  · have habsent : (repository package structName).isPresent content.toList = false := by
      rw [← Bool.not_eq_true, hpresent]
      exact hin
    obtain ⟨patched, hpatch, hpatched⟩ :=
      exists_patchContent path habsent (by rwa [markerText_repository]) hmarker
    refine ⟨patched, _, hpatch, Or.inr ⟨hin, rfl, ?_⟩⟩
    refine ⟨(repository package structName).lineFor marker, ?_, ?_⟩
    · have hfeed := noFeed_repository (noFeed_of_noBlank hpackage') (noFeed_of_noBlank hstruct')
      rw [hpatched, pieces_insertAbove_of_noFeed (noFeed_lineFor hfeed marker)]
      simp
    · rw [trimChars_lineFor]
      exact trimChars_repository hpackage' hstruct'

/-- A file in which the entry of users is the end of a longer one. -/
def longerEntry : String :=
  "    mydb.NewUserDb,\n    // ==== Add Repo before this line, don't edit this line.====\n"

theorem isOnlyLineAt_longerEntry :
    IsOnlyLineAt repositoryMarker.toList 1 longerEntry.toList := by
  rw [← markerText_repository "db" "User", ← markerPlaces_eq_singleton_iff]
  decide +kernel

/-- Entries of two packages in one file, of which the file has one as the end of the other. -/
theorem order_registers :
    IsOnlyLineAt repositoryMarker.toList 1 longerEntry.toList ∧
      ∃ patched,
        (repository "db" "Order").patchContent ⟨"app.go"⟩ longerEntry =
            .ok (patched, .inserted 2) ∧
          HasLine "db.NewOrderDb,".toList patched.toList := by
  refine ⟨isOnlyLineAt_longerEntry, ?_⟩
  obtain ⟨patched, patch, hpatch, ⟨hin, -⟩ | ⟨-, rfl, hline⟩⟩ :=
    patchContent_registers_iff ⟨"app.go"⟩ (show Go.isPackageName "db" = true by decide)
      (List.all_eq_true.mp (show "Order".toList.all Go.isWordChar = true by decide))
      isOnlyLineAt_longerEntry
  · exact absurd (contains_iff_isInfix.mpr hin) (by decide +kernel)
  · exact ⟨patched, hpatch, hline⟩

/-- An entry that ends a longer one is taken to be present and registered nowhere. -/
theorem user_notRegistered :
    ¬ ∀ (package structName content : String) (place : Nat) (path : Path) (patched : String)
        (patch : Patch),
      Go.isPackageName package = true →
      (∀ c ∈ structName.toList, Go.isWordChar c = true) →
      IsOnlyLineAt repositoryMarker.toList place content.toList →
      (repository package structName).patchContent path content = .ok (patched, patch) →
      HasLine (package ++ ".New" ++ structName ++ "Db,").toList patched.toList := by
  intro h
  have hline := h "db" "User" longerEntry 1 ⟨"app.go"⟩ longerEntry .alreadyPresent (by decide)
    (List.all_eq_true.mp (by decide)) isOnlyLineAt_longerEntry
    (FileTree.eq_ok_of_toOption (by decide +kernel))
  revert hline
  decide +kernel

/-! ## Batches -/

/-- The entries of one package that are not in a content can go into it. -/
theorem goIn_repositories
    {structNames : List String}
    (hpackage : Go.isPackageName package = true)
    (hstructs : ∀ structName ∈ structNames, ∀ c ∈ structName.toList, Go.isWordChar c = true)
    (hnodup : structNames.Nodup)
    (hmarker : (pieces content.toList)[place]? = some marker)
    (honly : IsOnlyLineAt repositoryMarker.toList place content.toList)
    (habsent : ∀ structName ∈ structNames,
      ¬ (package ++ ".New" ++ structName ++ "Db,").toList <:+: content.toList) :
    GoIn (structNames.map (repository package)) marker place content.toList := by
  have hchars := (Go.isWord_iff.mp (Go.isWord_of_isPackageName hpackage)).2
  have hpackage' := Go.noBlank_of_wordChars hchars
  have hstructs' := fun structName hin => Go.noBlank_of_wordChars (hstructs structName hin)
  constructor
  case marked => exact hmarker
  case only => exact List.forall_mem_map.mpr fun structName _ => by rwa [markerText_repository]
  case absent =>
      refine List.forall_mem_map.mpr fun structName hin => ?_
      rw [← Bool.not_eq_true, isPresent_repository_iff hpackage' (hstructs' structName hin)]
      exact habsent structName hin
  case noFeed =>
      exact List.forall_mem_map.mpr fun structName hin =>
        noFeed_repository (noFeed_of_noBlank hpackage')
          (noFeed_of_noBlank (hstructs' structName hin))
  case clear =>
      refine List.forall_mem_map.mpr fun structName hin =>
        List.forall_mem_map.mpr fun other _ => ?_
      rw [trimChars_repository hpackage' (hstructs' structName hin), markerText_repository]
      exact constructorText_ne_marker package structName
  case apart =>
      refine List.pairwise_map.mpr (hnodup.imp_of_mem fun {earlier later} hearlier hlater hne => ?_)
      rw [← Bool.not_eq_true, isPresent_repository_iff hpackage' (hstructs' later hlater)]
      intro hin
      have hcomma := Go.notMem_of_wordChars (c := ',') (hstructs earlier hearlier) (by decide)
      have hdot := Go.notMem_of_wordChars (c := '.') (hstructs earlier hearlier) (by decide)
      exact hne (eq_of_isInfix_lineFor (Go.notMem_of_wordChars hchars (by decide)) ⟨hcomma, hdot⟩
        (Go.notMem_of_wordChars (hstructs later hlater) (by decide)) hin).symm

/-- Entries of one package that are not in a content with a single marker line go in one below the
other above it, each with the ending of that line, and stand at the lines that are reported. -/
theorem patchAll_repositories
    {structNames : List String}
    (path : Path)
    (hpackage : Go.isPackageName package = true)
    (hstructs : ∀ structName ∈ structNames, ∀ c ∈ structName.toList, Go.isWordChar c = true)
    (hnodup : structNames.Nodup)
    (honly : IsOnlyLineAt repositoryMarker.toList place content.toList)
    (habsent : ∀ structName ∈ structNames,
      ¬ (package ++ ".New" ++ structName ++ "Db,").toList <:+: content.toList) :
    ∃ patched marker,
      (pieces content.toList)[place]? = some marker ∧
        patchAll path (structNames.map (repository package)) content =
          .ok (patched, (structNames.map (repository package)).mapIdx fun k insertion =>
            ⟨path, insertion.text, .inserted (place + k + 1)⟩) ∧
        pieces patched.toList =
          (pieces content.toList).take place ++
            (structNames.map (fun structName => (repository package structName).lineFor marker) ++
              (pieces content.toList).drop place) ∧
        ∀ k structName, structNames[k]? = some structName →
          (pieces patched.toList)[place + k]? =
            some ((repository package structName).lineFor marker) := by
  obtain ⟨marker, hmarker, -⟩ := honly.exists_part
  obtain ⟨patched, hall, hpatched⟩ := patchAll_inOrder path
    (goIn_repositories hpackage hstructs hnodup hmarker honly habsent)
  rw [List.map_map] at hpatched
  refine ⟨patched, marker, hmarker, hall, hpatched, fun k structName hname => ?_⟩
  have hlength : ((pieces content.toList).take place).length = place :=
    List.length_take_of_le (Nat.le_of_lt (List.getElem?_eq_some_iff.mp hmarker).1)
  have hk := (List.getElem?_eq_some_iff.mp hname).1
  rw [hpatched, List.getElem?_append_right (by omega), hlength, Nat.add_sub_cancel_left,
    List.getElem?_append_left (by simpa using hk), List.getElem?_map, hname]
  rfl

/-- A file whose lines end in carriage returns. -/
def returnedSet : String :=
  "set(\r\n    // ==== Add Repo before this line, don't edit this line.====\r\n)"

/-- Two entries, of which the name of the second ends that of the first. -/
theorem users_inOrder :
    IsOnlyLineAt repositoryMarker.toList 1 returnedSet.toList ∧
      ∃ patched,
        patchAll ⟨"app.go"⟩ [repository "db" "AdminUser", repository "db" "User"] returnedSet =
            .ok (patched, [⟨⟨"app.go"⟩, "    db.NewAdminUserDb,", .inserted 2⟩,
              ⟨⟨"app.go"⟩, "    db.NewUserDb,", .inserted 3⟩]) ∧
          pieces patched.toList =
            ["set(\r".toList, "    db.NewAdminUserDb,\r".toList, "    db.NewUserDb,\r".toList,
              ("    " ++ repositoryMarker ++ "\r").toList, ")".toList] := by
  have honly : IsOnlyLineAt repositoryMarker.toList 1 returnedSet.toList := by
    rw [← markerText_repository "db" "User", ← markerPlaces_eq_singleton_iff]
    decide +kernel
  obtain ⟨patched, marker, hmarker, hall, hpatched, -⟩ :=
    patchAll_repositories ⟨"app.go"⟩ (show Go.isPackageName "db" = true by decide)
      (show ∀ structName ∈ ["AdminUser", "User"],
          ∀ c ∈ structName.toList, Go.isWordChar c = true by
        simp only [← List.all_eq_true]
        decide)
      (by decide) honly
      (fun structName hin => by
        rw [← contains_iff_isInfix]
        revert structName
        decide +kernel)
  have hreturn : marker = ("    " ++ repositoryMarker ++ "\r").toList := by
    rw [← Option.some_inj, ← hmarker]
    decide +kernel
  refine ⟨honly, patched, hall, ?_⟩
  rw [hpatched, hreturn]
  decide +kernel

end Insertion
end GormForge
