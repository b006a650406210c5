import GormForge.Text.Percent
import GormForge.Proofs.Text.Splitting

/-!
# Reading back percent-encoded texts

**Input.**  A delimiter is a character of ASCII that is escaped and has no part in an escape.

**Results.**
* `percentDecode_percentEncode`: an encoded text is read back.
* `IsDelimiter.percentDecode_append`: what stands before a delimiter is read by itself.
* `length_percentDecode_le`: a text is not shorter than what is read from it.
-/

namespace GormForge
namespace Text

variable {c : Char}
variable {cs ds : List Char}

/-! ## Bytes -/

/-- The bytes of a list of characters. -/
def utf8 (cs : List Char) : List UInt8 :=
  cs.flatMap String.utf8EncodeChar

@[simp] theorem utf8_cons
    (c : Char)
    (cs : List Char) :
    utf8 (c :: cs) = String.utf8EncodeChar c ++ utf8 cs := by
  rfl

@[simp] theorem utf8_append
    (cs ds : List Char) :
    utf8 (cs ++ ds) = utf8 cs ++ utf8 ds := by
  simp [utf8]

@[simp] theorem length_utf8
    (cs : List Char) :
    (utf8 cs).length = byteLength cs := by
  induction cs with
  | nil => rfl
  | cons c cs ih => simp [byteLength, ih]

theorem utf8EncodeChar_ascii
    (hc : c.toNat < 0x80) :
    String.utf8EncodeChar c = [UInt8.ofNat c.toNat] := by
  have hle : c.val.toNat ≤ 127 := Nat.le_of_lt_succ hc
  simp only [String.utf8EncodeChar, hle, if_true]
  rfl

/-- The bytes of a character outside ASCII are none of ASCII. -/
theorem le_of_mem_utf8EncodeChar
    {b : UInt8}
    (hc : 0x80 ≤ c.toNat)
    (hb : b ∈ String.utf8EncodeChar c) :
    0x80 ≤ b.toNat := by
  have hgt : ¬ c.val.toNat ≤ 127 := Nat.not_le.mpr hc
  simp only [String.utf8EncodeChar, hgt, if_false] at hb
  split at hb
  · simp only [List.mem_cons, List.not_mem_nil, or_false] at hb
    rcases hb with rfl | rfl <;> simp only [UInt8.toNat_ofNat'] <;> omega
  · split at hb
    · simp only [List.mem_cons, List.not_mem_nil, or_false] at hb
      rcases hb with rfl | rfl | rfl <;> simp only [UInt8.toNat_ofNat'] <;> omega
    · simp only [List.mem_cons, List.not_mem_nil, or_false] at hb
      rcases hb with rfl | rfl | rfl | rfl <;> simp only [UInt8.toNat_ofNat'] <;> omega

/-- A character of ASCII is in a text if its byte is. -/
theorem mem_of_mem_utf8
    (hc : c.toNat < 0x80)
    (h : UInt8.ofNat c.toNat ∈ utf8 cs) :
    c ∈ cs := by
  have hbyte : ∀ code < 0x80, (UInt8.ofNat code).toNat = code := by
    decide
  obtain ⟨d, hd, hmem⟩ := List.mem_flatMap.mp h
  by_cases hascii : d.toNat < 0x80
  · rw [utf8EncodeChar_ascii hascii, List.mem_singleton] at hmem
    have hcode := congrArg UInt8.toNat hmem
    rw [hbyte _ hc, hbyte _ hascii] at hcode
    rwa [Char.toNat_inj.mp hcode]
  · have hlarge := le_of_mem_utf8EncodeChar (Nat.le_of_not_lt hascii) hmem
    rw [hbyte _ hc] at hlarge
    omega

/-! ## Escapes -/

theorem hexValue?_hexDigit
    {n : Nat}
    (hn : n < 16) :
    hexValue? (hexDigit n) = some n := by
  have hall : ∀ n < 16, hexValue? (hexDigit n) = some n := by
    decide
  exact hall n hn

theorem isUnreserved_hexDigit
    {n : Nat}
    (hn : n < 16) :
    isUnreserved (hexDigit n) = true := by
  have hall : ∀ n < 16, isUnreserved (hexDigit n) = true := by
    decide
  exact hall n hn

theorem percentDecode_escape
    {hi lo : Char}
    {h l : Nat}
    (hhi : hexValue? hi = some h)
    (hlo : hexValue? lo = some l)
    (rest : List Char) :
    percentDecode ('%' :: hi :: lo :: rest) = UInt8.ofNat (h * 16 + l) :: percentDecode rest := by
  simp [percentDecode, hhi, hlo]

theorem percentDecode_cons_of_ne
    (hc : c ≠ '%')
    (cs : List Char) :
    percentDecode (c :: cs) = String.utf8EncodeChar c ++ percentDecode cs := by
  rw [percentDecode]
  rintro hi lo rest rfl
  exact absurd rfl hc

/-- A percent sign that starts no escape stands for itself. -/
theorem percentDecode_percent
    (h : ∀ hi lo rest m n, cs = hi :: lo :: rest →
      hexValue? hi = some m → hexValue? lo = some n → False) :
    percentDecode ('%' :: cs) = String.utf8EncodeChar '%' ++ percentDecode cs := by
  match cs with
  | [] | [_] => simp [percentDecode]
  | hi :: lo :: rest =>
      rw [percentDecode]
      split
      · next m n hhi hlo => exact absurd (h hi lo rest m n rfl hhi hlo) not_false
      · rfl

/-- An escaped byte is read back. -/
theorem percentDecode_escapeByte
    (b : UInt8)
    (cs : List Char) :
    percentDecode (escapeByte b ++ cs) = b :: percentDecode cs := by
  have hb : b.toNat < 256 := UInt8.toNat_lt_size b
  have hhi : hexValue? (hexDigit (b.toNat / 16)) = some (b.toNat / 16) :=
    hexValue?_hexDigit (by omega)
  have hlo : hexValue? (hexDigit (b.toNat % 16)) = some (b.toNat % 16) :=
    hexValue?_hexDigit (by omega)
  have hsum : b.toNat / 16 * 16 + b.toNat % 16 = b.toNat := by omega
  simp only [escapeByte, List.cons_append, List.nil_append]
  rw [percentDecode_escape hhi hlo, hsum, UInt8.ofNat_toNat]

theorem percentDecode_escapeBytes
    (bytes : List UInt8)
    (cs : List Char) :
    percentDecode (bytes.flatMap escapeByte ++ cs) = bytes ++ percentDecode cs := by
  induction bytes with
  | nil => rfl
  | cons b bytes ih =>
      rw [List.flatMap_cons, List.append_assoc, percentDecode_escapeByte, ih, List.cons_append]

/-- What is unreserved is no percent sign. -/
theorem ne_percent_of_isUnreserved
    (hc : isUnreserved c = true) :
    c ≠ '%' := by
  rintro rfl
  exact absurd hc (by decide)

/-- An encoded text is read back, whatever follows it. -/
theorem percentDecode_percentEncode_append
    (cs ds : List Char) :
    percentDecode (percentEncode cs ++ ds) = utf8 cs ++ percentDecode ds := by
  unfold percentEncode
  induction cs with
  | nil => rfl
  | cons c cs ih =>
      rw [List.flatMap_cons, List.append_assoc, utf8_cons, List.append_assoc, ← ih]
      unfold percentEncodeChar
      split
      · next hc => exact percentDecode_cons_of_ne (ne_percent_of_isUnreserved hc) _
      · exact percentDecode_escapeBytes _ _

theorem percentDecode_percentEncode
    (cs : List Char) :
    percentDecode (percentEncode cs) = utf8 cs := by
  simpa [percentDecode] using percentDecode_percentEncode_append cs []

/-- What is read from a text is not longer than the text. -/
theorem length_percentDecode_le
    (cs : List Char) :
    (percentDecode cs).length ≤ byteLength cs := by
  fun_induction percentDecode cs with
  | case1 => simp
  | case2 hi lo rest h l hlo hhi ih =>
      have hsize := hi.utf8Size_pos
      simp only [byteLength, List.length_cons]
      omega
  | case3 hi lo rest hnone ih =>
      simpa [byteLength] using ih
  | case4 c rest hnone ih => simpa [byteLength] using ih

/-! ## Delimiters -/

/-- A character of ASCII that is escaped and has no part in an escape. -/
structure IsDelimiter (c : Char) : Prop where
  ascii : c.toNat < 0x80
  reserved : isUnreserved c = false
  notPercent : c ≠ '%'

theorem isDelimiter_colon : IsDelimiter ':' :=
  ⟨by decide, by decide, by decide⟩

theorem isDelimiter_at : IsDelimiter '@' :=
  ⟨by decide, by decide, by decide⟩

/-- A hexadecimal digit is a letter or a digit. -/
theorem isUnreserved_of_hexValue?
    {n : Nat}
    (h : hexValue? c = some n) :
    isUnreserved c = true := by
  have hall : ∀ code < 0x80, (hexValue? (Char.ofNat code)).isSome = true →
      isUnreserved (Char.ofNat code) = true := by
    decide +kernel
  have hascii : c.toNat < 0x80 := by
    simp only [hexValue?, Char.isDigit] at h
    split at h
    · next hdigit =>
        simp only [Bool.and_eq_true, decide_eq_true_eq, UInt32.le_iff_toNat_le] at hdigit
        exact Nat.lt_of_le_of_lt hdigit.2 (by decide)
    · split at h
      · next hsmall =>
          simp only [Bool.and_eq_true, decide_eq_true_eq, Char.le_def,
            UInt32.le_iff_toNat_le] at hsmall
          exact Nat.lt_of_le_of_lt hsmall.2 (by decide)
      · split at h
        · next hcapital =>
            simp only [Bool.and_eq_true, decide_eq_true_eq, Char.le_def,
              UInt32.le_iff_toNat_le] at hcapital
            exact Nat.lt_of_le_of_lt hcapital.2 (by decide)
        · cases h
  have hcode := hall c.toNat hascii (by rw [Char.ofNat_toNat, h]; rfl)
  rwa [Char.ofNat_toNat] at hcode

theorem IsDelimiter.hexValue?_eq_none
    (hc : IsDelimiter c) :
    hexValue? c = none := by
  cases hvalue : hexValue? c with
  | none => rfl
  | some n =>
      have hreserved := hc.reserved
      rw [isUnreserved_of_hexValue? hvalue] at hreserved
      cases hreserved

/-- An encoded text holds no delimiter. -/
theorem IsDelimiter.notMem_percentEncode
    (hc : IsDelimiter c)
    (cs : List Char) :
    c ∉ percentEncode cs := by
  intro hmem
  obtain ⟨d, -, hd⟩ := List.mem_flatMap.mp hmem
  have hreserved := hc.reserved
  unfold percentEncodeChar at hd
  split at hd
  · next hunreserved =>
      rw [← List.mem_singleton.mp hd, hreserved] at hunreserved
      cases hunreserved
  · obtain ⟨b, -, hb⟩ := List.mem_flatMap.mp hd
    have hbound : b.toNat < 256 := UInt8.toNat_lt_size b
    simp only [escapeByte, List.mem_cons, List.not_mem_nil, or_false] at hb
    rcases hb with heq | heq | heq
    · exact hc.notPercent heq
    · rw [heq, isUnreserved_hexDigit (by omega)] at hreserved
      cases hreserved
    · rw [heq, isUnreserved_hexDigit (by omega)] at hreserved
      cases hreserved

/-- What stands before a delimiter is read by itself. -/
theorem IsDelimiter.percentDecode_append
    (hc : IsDelimiter c)
    (cs ds : List Char) :
    percentDecode (cs ++ c :: ds) =
      percentDecode cs ++ UInt8.ofNat c.toNat :: percentDecode ds := by
  have hnone := hc.hexValue?_eq_none
  have hhead : percentDecode (c :: ds) = UInt8.ofNat c.toNat :: percentDecode ds := by
    rw [percentDecode_cons_of_ne hc.notPercent, utf8EncodeChar_ascii hc.ascii,
      List.singleton_append]
  fun_induction percentDecode cs with
  | case1 => exact hhead
  | case2 hi lo rest h l hlo hhi ih =>
      simp only [List.cons_append]
      rw [percentDecode_escape hhi hlo, ih]
  | case3 hi lo rest hescape ih =>
      rw [List.append_assoc, ← ih]
      refine percentDecode_percent fun hi' lo' rest' h l heq hhi hlo => ?_
      cases heq
      exact hescape h l hhi hlo
  | case4 d rest hshort ih =>
      rw [List.append_assoc, ← ih, List.cons_append]
      by_cases hd : d = '%'
      · -- at most one character stands between the percent sign and the delimiter
        obtain rfl := hd
        refine percentDecode_percent fun hi lo rest' h l heq hhi hlo => ?_
        rcases rest with _ | ⟨first, _ | ⟨second, rest⟩⟩
        · cases heq
          rw [hnone] at hhi
          cases hhi
        · cases heq
          rw [hnone] at hlo
          cases hlo
        · exact hshort first second rest rfl rfl
      · exact percentDecode_cons_of_ne hd _

/-- A delimiter that is read from no text does not stand there. -/
theorem IsDelimiter.notMem_of_percentDecode
    (hc : IsDelimiter c)
    (h : percentDecode ds = utf8 cs)
    (hmem : c ∉ cs) :
    c ∉ ds := by
  intro hds
  obtain ⟨front, back, rfl⟩ := List.append_of_mem hds
  rw [hc.percentDecode_append] at h
  refine hmem (mem_of_mem_utf8 hc.ascii ?_)
  rw [← h]
  simp

/-- What is read from a text has no more characters before a delimiter than the text. -/
theorem IsDelimiter.byteLength_takeWhile_le
    (hc : IsDelimiter c)
    (h : percentDecode ds = utf8 cs) :
    byteLength (cs.takeWhile (· != c)) ≤ byteLength (ds.takeWhile (· != c)) := by
  by_cases hds : c ∈ ds
  · obtain ⟨front, back, rfl, hfront⟩ := List.eq_append_cons_of_mem hds
    rw [hc.percentDecode_append] at h
    obtain ⟨first, rest, rfl, hfirst⟩ : ∃ first rest, cs = first ++ c :: rest ∧ c ∉ first := by
      refine List.eq_append_cons_of_mem (mem_of_mem_utf8 hc.ascii ?_)
      rw [← h]
      simp
    rw [takeWhile_append_stop, takeWhile_append_stop, takeWhile_of_notMem hfront,
      takeWhile_of_notMem hfirst, ← length_utf8]
    refine Nat.le_trans ?_ (length_percentDecode_le front)
    rw [utf8_append, utf8_cons, utf8EncodeChar_ascii hc.ascii] at h
    rcases List.append_eq_append_iff.mp h with ⟨extra, hextra, hrest⟩ | ⟨extra, hextra, -⟩
    · -- the byte of the delimiter would come too early
      cases extra with
      | nil => simp [hextra]
      | cons b extra =>
          obtain ⟨rfl, -⟩ := List.cons.inj hrest
          exact absurd (mem_of_mem_utf8 hc.ascii (by rw [hextra]; simp)) hfirst
    · simp [hextra]
  · rw [takeWhile_of_notMem hds]
    have hlength := congrArg List.length h
    rw [length_utf8] at hlength
    calc byteLength (cs.takeWhile (· != c))
        ≤ byteLength cs := byteLength_le_of_prefix (List.takeWhile_prefix _)
      _ = (percentDecode ds).length := hlength.symm
      _ ≤ byteLength ds := length_percentDecode_le ds

end Text
end GormForge
