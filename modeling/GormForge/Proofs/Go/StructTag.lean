import GormForge.Go.StructTag
import GormForge.Proofs.Go.Source
import GormForge.Proofs.Text.Percent

/-!
# Values of struct tags

Which values can be read back from a struct tag in which they stand as they are.

**Input.**  One or two entries whose values are put between double quotes without any escape.

**Algorithm.**  An escape is longer than what it stands for.  So a value that is read to its own
length is read as it stands, and holds no quote, no backslash and no line break.

**Results.**
* `value?_of_plain`: a value without such marks is read as it stands.
* `exists_of_valueFrom`: what is read is not longer than what it is read from, and as long only
  where that has no marks.
* `entries?_pair_iff`: two entries are read back exactly if neither value has marks.
-/

namespace GormForge

namespace Go
namespace StructTag

open Text (byteLength utf8)

variable {base count skip limit taken : Nat}
variable {bytes value : List UInt8}
variable {cs key first second gap rest after : List Char}
variable {more : List (String × List UInt8)}

/-! ## Escapes -/

theorem length_take_of_number?
    {n : Nat}
    (h : number? base count cs = some n) :
    (cs.take count).length = count := by
  unfold number? at h
  split at h
  · assumption
  · cases h

theorem length_of_byte?
    (h : byte? base count cs = some bytes) :
    bytes.length = 1 ∧ (cs.take count).length = count := by
  obtain ⟨n, hn, rfl⟩ := Option.map_eq_some_iff.mp h
  exact ⟨rfl, length_take_of_number? (Option.filter_eq_some_iff.mp hn).1⟩

theorem length_of_codePoint?
    (h : codePoint? count cs = some bytes) :
    bytes.length ≤ 4 ∧ (cs.take count).length = count := by
  obtain ⟨n, hn, rfl⟩ := Option.map_eq_some_iff.mp h
  refine ⟨?_, length_take_of_number? (Option.filter_eq_some_iff.mp hn).1⟩
  rw [String.length_utf8EncodeChar]
  exact Char.utf8Size_le_four _

/-- Letters stand for single bytes. -/
theorem length_of_escaped?
    {c d : Char}
    (h : escaped? c = some d) :
    (String.utf8EncodeChar d).length = 1 := by
  unfold escaped? at h
  split at h
  case h_10 => cases h
  all_goals
    cases h
    rfl

/-- A letter and the digits behind it are as many characters as the bytes they stand for, or
more. -/
theorem length_of_letter
    {c : Char}
    (h : ((codePoint? count cs).map fun bytes => (bytes, count + 1)) = some (bytes, taken))
    (hcount : 4 ≤ count) :
    bytes.length ≤ ((c :: cs).take taken).length := by
  obtain ⟨found, hfound, heq⟩ := Option.map_eq_some_iff.mp h
  cases heq
  have hlength := length_of_codePoint? hfound
  simp only [List.take_succ_cons, List.length_cons]
  omega

/-- An escape stands for no more bytes than it has characters behind its backslash. -/
theorem length_of_escape?
    (h : escape? cs = some (bytes, taken)) :
    bytes.length ≤ (cs.take taken).length := by
  cases cs with
  | nil => cases h
  | cons c rest =>
      simp only [escape?] at h
      split at h
      · obtain ⟨found, hfound, heq⟩ := Option.map_eq_some_iff.mp h
        cases heq
        have hlength := length_of_byte? hfound
        simp only [List.take_succ_cons, List.length_cons]
        omega
      · exact length_of_letter h (by decide)
      · exact length_of_letter h (by decide)
      · split at h
        · next d hd =>
            cases h
            rw [length_of_escaped? hd]
            simp
        · obtain ⟨found, hfound, heq⟩ := Option.map_eq_some_iff.mp h
          cases heq
          have hlength := length_of_byte? hfound
          omega

/-! ## Values -/

/-- A text is read as it stands if it has no marks. -/
theorem value?_of_plain
    (h : cs.any isStringMark = false)
    (rest : List Char) :
    value? (cs ++ '"' :: rest) = some (utf8 cs, rest) := by
  unfold value?
  induction cs with
  | nil => rfl
  | cons c cs ih =>
      rw [List.any_cons, Bool.or_eq_false_iff] at h
      obtain ⟨hc, hcs⟩ := h
      simp only [isStringMark, Bool.or_eq_false_iff, beq_eq_false_iff_ne] at hc
      obtain ⟨⟨hquote, hescape⟩, hbreak⟩ := hc
      rw [List.cons_append, valueFrom, if_neg hquote, if_neg hbreak, if_neg hescape, ih hcs]
      rfl

/-- What is read is not longer than what it is read from, and as long only if that has no
marks. -/
theorem exists_of_valueFrom
    (h : valueFrom skip cs = some (bytes, after)) :
    ∃ raw,
      cs.drop skip = raw ++ '"' :: after ∧
        bytes.length ≤ byteLength raw ∧
        (bytes.length = byteLength raw → raw.any isStringMark = false) := by
  fun_induction valueFrom skip cs generalizing bytes with
  | case1 => cases h
  | case2 skip c rest ih => exact ih h
  | case3 rest =>
      cases h
      exact ⟨[], rfl, Nat.le_refl 0, fun _ => rfl⟩
  | case4 rest => cases h
  | case5 rest hnone => cases h
  | case6 rest escaped taken hescape hquote hbreak ih =>
      obtain ⟨⟨found, tail⟩, hfound, heq⟩ := Option.map_eq_some_iff.mp h
      cases heq
      obtain ⟨raw, hraw, hlength, -⟩ := ih hfound
      -- the backslash makes the difference
      have hshort := length_of_escape? hescape
      have hbytes := Text.length_le_byteLength (rest.take taken)
      have hsize : '\\'.utf8Size = 1 := by rfl
      refine ⟨'\\' :: (rest.take taken ++ raw), ?_, ?_, fun hsame => ?_⟩
      · rw [List.drop_zero, List.cons_append, List.append_assoc, ← hraw, List.take_append_drop]
      · simp only [List.length_append, byteLength, Text.byteLength_append]
        omega
      · simp only [List.length_append, byteLength, Text.byteLength_append] at hsame
        omega
  | case7 c rest hquote hbreak hescape ih =>
      obtain ⟨⟨found, tail⟩, hfound, heq⟩ := Option.map_eq_some_iff.mp h
      cases heq
      obtain ⟨raw, hraw, hlength, hplain⟩ := ih hfound
      refine ⟨c :: raw, ?_, ?_, fun hsame => ?_⟩
      · rw [List.drop_zero, List.cons_append, ← hraw, List.drop_zero]
      · simp only [List.length_append, String.length_utf8EncodeChar, byteLength]
        omega
      · simp only [List.length_append, String.length_utf8EncodeChar, byteLength] at hsame
        rw [List.any_cons, hplain (by omega)]
        simp [isStringMark, hquote, hbreak, hescape]

/-! ## Entries -/

/-- An entry whose value stands as it is. -/
def entryText (key value : List Char) : List Char :=
  key ++ ':' :: '"' :: (value ++ ['"'])

/-- A text that can be the key of an entry. -/
structure IsKey (key : List Char) : Prop where
  nonempty : key ≠ []
  chars : ∀ c ∈ key, isKeyChar c = true

/-- A key does not begin with a space. -/
theorem IsKey.exists_cons
    (h : IsKey key) :
    ∃ c rest, key = c :: rest ∧ c ≠ ' ' := by
  obtain ⟨c, rest, rfl⟩ := List.exists_cons_of_ne_nil h.nonempty
  refine ⟨c, rest, rfl, ?_⟩
  rintro rfl
  exact absurd (h.chars ' ' (List.mem_cons_self ..)) (by decide)

/-- There is no gap before an entry. -/
theorem IsKey.gap_eq_nil
    {text : List Char}
    (hkey : IsKey key)
    (hgap : ∀ c ∈ gap, c = ' ')
    (h : entryText key first ++ rest = gap ++ text) :
    gap = [] := by
  obtain ⟨c, key, rfl, hc⟩ := hkey.exists_cons
  cases gap with
  | nil => rfl
  | cons d gap =>
      obtain ⟨rfl, -⟩ := List.cons.inj (show c :: _ = d :: _ from h)
      exact absurd (hgap c (List.mem_cons_self ..)) hc

/-- The gap before an entry that follows a space is the space. -/
theorem IsKey.gap_eq_space
    {raw : List Char}
    (hkey : IsKey key)
    (hgap : ∀ c ∈ gap, c = ' ')
    (h : ' ' :: entryText key first = gap ++ (entryText key raw ++ after)) :
    gap = [' '] := by
  cases gap with
  | nil =>
      have hspaces : [' '] = [] := hkey.gap_eq_nil (by simp) h.symm
      cases hspaces
  | cons d gap =>
      obtain ⟨rfl, htail⟩ := List.cons.inj h
      rw [← List.append_nil (entryText key first)] at htail
      rw [hkey.gap_eq_nil (List.forall_mem_cons.mp hgap).2 htail]

theorem entryText_append_inj
    (h : entryText key first ++ rest = entryText key second ++ after) :
    first ++ '"' :: rest = second ++ '"' :: after := by
  simpa [entryText] using h

/-- An entry whose value has no marks is read as it stands. -/
theorem entriesWithin_entryText
    (hkey : IsKey key)
    (h : cs.any isStringMark = false)
    (rest : List Char) :
    entriesWithin (limit + 1) (entryText key cs ++ rest) =
      (entriesWithin limit rest).map ((String.ofList key, utf8 cs) :: ·) := by
  obtain ⟨c, key, rfl, hc⟩ := hkey.exists_cons
  have htext : entryText (c :: key) cs ++ rest =
      (c :: key) ++ ':' :: '"' :: (cs ++ '"' :: rest) := by
    simp [entryText]
  have hstart : (entryText (c :: key) cs ++ rest).dropWhile (· == ' ') =
      (c :: key) ++ ':' :: '"' :: (cs ++ '"' :: rest) := by
    rw [htext, List.cons_append, List.dropWhile_cons_of_neg (by simpa using hc)]
  have hfront : ((c :: key) ++ ':' :: '"' :: (cs ++ '"' :: rest)).takeWhile isKeyChar =
      c :: key := by
    rw [List.takeWhile_append_of_pos hkey.chars, List.takeWhile_cons_of_neg (by decide),
      List.append_nil]
  have hback : ((c :: key) ++ ':' :: '"' :: (cs ++ '"' :: rest)).dropWhile isKeyChar =
      ':' :: '"' :: (cs ++ '"' :: rest) := by
    rw [List.dropWhile_append_of_pos hkey.chars, List.dropWhile_cons_of_neg (by decide)]
  rw [entriesWithin, hstart]
  simp only [List.cons_append] at hfront hback ⊢
  rw [hfront, hback]
  simp only [value?_of_plain h]

/-- A space before an entry is passed over. -/
theorem entriesWithin_space
    (cs : List Char) :
    entriesWithin limit (' ' :: cs) = entriesWithin limit cs := by
  cases limit with
  | zero => rfl
  | succ limit =>
      rw [entriesWithin, entriesWithin, List.dropWhile_cons_of_pos (by decide)]

/-- What the first entry is read from. -/
theorem exists_of_entriesWithin_cons
    {name : String}
    (h : entriesWithin limit cs = some ((name, value) :: more)) :
    ∃ gap raw after left,
      cs = gap ++ (entryText name.toList raw ++ after) ∧
        (∀ c ∈ gap, c = ' ') ∧
        value.length ≤ byteLength raw ∧
        (value.length = byteLength raw → raw.any isStringMark = false) ∧
        entriesWithin left after = some more := by
  cases limit with
  | zero => cases h
  | succ limit =>
      rw [entriesWithin] at h
      have hgap : ∀ c ∈ cs.takeWhile (· == ' '), c = ' ' := fun c hc => by
        simpa using List.mem_takeWhile_imp hc
      split at h
      · cases h
      · next htag =>
          split at h
          · cases h
          · next hback hfront =>
              split at h
              · cases h
              · next found after hvalue =>
                  obtain ⟨entries, hentries, heq⟩ := Option.map_eq_some_iff.mp h
                  cases heq
                  obtain ⟨raw, hraw, hlength, hplain⟩ := exists_of_valueFrom hvalue
                  rw [List.drop_zero] at hraw
                  refine ⟨cs.takeWhile (· == ' '), raw, after, limit, ?_, hgap, hlength, hplain,
                    hentries⟩
                  have hkey : (cs.dropWhile (· == ' ')).takeWhile isKeyChar ++
                      ':' :: '"' :: (raw ++ '"' :: after) = cs.dropWhile (· == ' ') := by
                    rw [← hraw, ← hback]
                    exact List.takeWhile_append_dropWhile
                  have hwhole : cs.takeWhile (· == ' ') ++ cs.dropWhile (· == ' ') = cs :=
                    List.takeWhile_append_dropWhile
                  rw [← hkey] at hwhole
                  simpa [entryText] using hwhole.symm
          · cases h

/-! ## Two entries -/

@[simp] theorem byteLength_entryText
    (key value : List Char) :
    byteLength (entryText key value) = byteLength key + byteLength value + 3 := by
  have hcolon : ':'.utf8Size = 1 := by rfl
  have hquote : '"'.utf8Size = 1 := by rfl
  simp only [entryText, Text.byteLength_append, byteLength]
  omega

/-- A text that is no longer in bytes than nothing is empty. -/
theorem eq_nil_of_byteLength
    (h : byteLength cs = 0) :
    cs = [] := by
  have hlength := Text.length_le_byteLength cs
  exact List.eq_nil_of_length_eq_zero (by omega)

/-- A value that is followed by a quote and a space is not read beyond its end, if what follows is
needed for the next entry. -/
theorem eq_of_read_to_quote
    {raw : List Char}
    (hlong : byteLength first ≤ byteLength raw)
    (hneeded : byteLength rest ≤ byteLength after)
    (h : first ++ '"' :: ' ' :: rest = raw ++ '"' :: after) :
    raw = first ∧ after = ' ' :: rest := by
  rcases List.append_eq_append_iff.mp h with ⟨extra, rfl, htail⟩ | ⟨extra, rfl, htail⟩
  · rcases extra with _ | ⟨c, _ | ⟨d, extra⟩⟩
    · simpa using (List.cons.inj htail).2.symm
    · simp at htail
    · -- too little would be left
      have hrest : rest = extra ++ '"' :: after := by
        simp only [List.cons_append, List.cons.injEq] at htail
        exact htail.2.2
      have hquote : '"'.utf8Size = 1 := by rfl
      rw [hrest, Text.byteLength_append] at hneeded
      simp only [byteLength] at hneeded
      omega
  · rw [Text.byteLength_append] at hlong
    obtain rfl : extra = [] := eq_nil_of_byteLength (by omega)
    simpa using htail

/-- A value that ends the tag is not read short of its end. -/
theorem eq_of_read_to_end
    {raw : List Char}
    (hlong : byteLength first ≤ byteLength raw)
    (h : first ++ ['"'] = raw ++ '"' :: after) :
    raw = first := by
  have hbytes := congrArg byteLength h
  simp only [Text.byteLength_append, byteLength] at hbytes
  obtain rfl : after = [] := eq_nil_of_byteLength (by omega)
  exact (List.append_cancel_right h).symm

/-- One entry is not read as two. -/
theorem entriesWithin_single_ne
    (key value : List Char)
    (second : String × List UInt8) :
    entriesWithin limit (entryText key value) ≠ some [(String.ofList key, utf8 value), second] := by
  intro h
  obtain ⟨gap, raw, after, left, htext, -, hlength, -, hmore⟩ := exists_of_entriesWithin_cons h
  obtain ⟨gap', raw', after', -, hafter, -, -, -, -⟩ := exists_of_entriesWithin_cons hmore
  have hbytes := congrArg byteLength htext
  have hbytes' := congrArg byteLength hafter
  rw [String.toList_ofList] at hbytes
  rw [Text.length_utf8] at hlength
  simp only [Text.byteLength_append, byteLength_entryText] at hbytes hbytes'
  omega

/-- Two entries are read back exactly if neither value has marks. -/
theorem entriesWithin_pair_iff
    {firstKey secondKey : List Char}
    (hfirst : IsKey firstKey)
    (hsecond : IsKey secondKey)
    (first second : List Char) :
    entriesWithin (limit + 3) (entryText firstKey first ++ ' ' :: entryText secondKey second) =
        some [(String.ofList firstKey, utf8 first), (String.ofList secondKey, utf8 second)] ↔
      first.any isStringMark = false ∧ second.any isStringMark = false := by
  constructor
  · intro h
    obtain ⟨gap, raw, after, left, htext, hgap, hlength, hplain, hmore⟩ :=
      exists_of_entriesWithin_cons h
    obtain ⟨gap', raw', after', left', hafter, hgap', hlength', hplain', -⟩ :=
      exists_of_entriesWithin_cons hmore
    rw [String.toList_ofList] at htext hafter
    rw [Text.length_utf8] at hlength hplain hlength' hplain'
    -- the first value
    obtain rfl := hfirst.gap_eq_nil hgap htext
    obtain ⟨rfl, hspace⟩ : raw = first ∧ after = ' ' :: entryText secondKey second := by
      refine eq_of_read_to_quote hlength ?_ (entryText_append_inj htext)
      rw [hafter]
      simp only [Text.byteLength_append, byteLength_entryText]
      omega
    -- the second value
    rw [hspace] at hafter
    obtain rfl := hsecond.gap_eq_space hgap' hafter
    have htail : entryText secondKey second ++ [] = entryText secondKey raw' ++ after' := by
      simpa using hafter
    obtain rfl := eq_of_read_to_end hlength' (entryText_append_inj htail)
    exact ⟨hplain rfl, hplain' rfl⟩
  · rintro ⟨hplain, hplain'⟩
    have hlast : entriesWithin (limit + 1) [] = some [] := rfl
    rw [entriesWithin_entryText hfirst hplain, entriesWithin_space,
      ← List.append_nil (entryText secondKey second), entriesWithin_entryText hsecond hplain',
      hlast]
    rfl

/-- A tag of two entries is read back exactly if neither value has marks. -/
theorem entries?_pair_iff
    {tag : String}
    {firstKey secondKey : List Char}
    (hfirst : IsKey firstKey)
    (hsecond : IsKey secondKey)
    (htag : tag.toList = entryText firstKey first ++ ' ' :: entryText secondKey second) :
    entries? tag =
        some [(String.ofList firstKey, utf8 first), (String.ofList secondKey, utf8 second)] ↔
      first.any isStringMark = false ∧ second.any isStringMark = false := by
  obtain ⟨limit, hlimit⟩ : ∃ limit, tag.length + 1 = limit + 3 := by
    have hlength := congrArg List.length htag
    simp only [String.length_toList, List.length_append, List.length_cons, entryText] at hlength
    exact ⟨tag.length - 2, by omega⟩
  rw [entries?, htag, hlimit]
  exact entriesWithin_pair_iff hfirst hsecond first second

end StructTag
end Go
end GormForge
