import Mathlib.Data.List.DropRight
import SniffProxy.Http.Sniff
import SniffProxy.Proofs.Rule.Normal

/-!
# Blanks around a header value

The scanner of a header line takes the blanks off both ends of a value as bytes. Whoever reads the
value takes white space off as text. Spaces and tabs are bytes of their own in UTF-8, so it does not
matter to the reader that the scanner was there before.

* `chars_of_cons`, `chars_of_concat` — an ASCII byte at an end of a text is a character there.
* `Http.trimmedText` — what a reader makes of a value.
* `Http.trimmedText_stripBlanks` — it is the same with and without the blanks.
-/

namespace SniffProxy

/-! ## ASCII bytes in UTF-8 -/

/-- A character with an ASCII byte has no other bytes. -/
theorem utf8EncodeChar_of_mem {c : Char} {b : UInt8} (hmem : b ∈ String.utf8EncodeChar c)
    (hascii : b.toNat < 128) : String.utf8EncodeChar c = [b] := by
  unfold String.utf8EncodeChar at hmem ⊢
  dsimp only at hmem ⊢
  split at hmem
  · rename_i hsmall
    rw [if_pos hsmall, List.mem_singleton.mp hmem]
  · exfalso
    split at hmem
    · simp only [List.mem_cons, List.not_mem_nil, or_false] at hmem
      rcases hmem with rfl | rfl <;> simp at hascii <;> omega
    · split at hmem
      · simp only [List.mem_cons, List.not_mem_nil, or_false] at hmem
        rcases hmem with rfl | rfl | rfl <;> simp at hascii <;> omega
      · simp only [List.mem_cons, List.not_mem_nil, or_false] at hmem
        rcases hmem with rfl | rfl | rfl | rfl <;> simp at hascii <;> omega

theorem toNat_of_utf8EncodeChar {c : Char} {b : UInt8} (h : String.utf8EncodeChar c = [b]) :
    c.toNat = b.toNat := by
  unfold String.utf8EncodeChar at h
  dsimp only at h
  split at h
  · rename_i hsmall
    have hlt : c.val.toNat < 256 := by omega
    rw [← (List.cons.inj h).1, UInt8.toNat_ofNat_of_lt' hlt]
    rfl
  · split at h
    · cases h
    · split at h <;> cases h

theorem decodeUtf8_eq_some_ofList {bytes : Bytes} {cs : List Char} :
    decodeUtf8 bytes = some (String.ofList cs) ↔ bytes = cs.flatMap String.utf8EncodeChar := by
  rw [decodeUtf8_eq_some_iff, utf8_ofList]

/-- An ASCII byte in front of a text is its first character. -/
theorem chars_of_cons {b : UInt8} (hascii : b.toNat < 128) {bytes : Bytes} {cs : List Char}
    (h : b :: bytes = cs.flatMap String.utf8EncodeChar) :
    ∃ c ds, cs = c :: ds ∧ String.utf8EncodeChar c = [b] ∧
      bytes = ds.flatMap String.utf8EncodeChar := by
  cases cs with
  | nil => cases h
  | cons c ds =>
    rw [List.flatMap_cons] at h
    have hmem : b ∈ String.utf8EncodeChar c := by
      obtain ⟨first, others, hc⟩ := List.exists_cons_of_ne_nil (String.utf8EncodeChar_ne_nil (c := c))
      rw [hc] at h ⊢
      rw [(List.cons.inj h).1]
      exact List.mem_cons_self
    have hc := utf8EncodeChar_of_mem hmem hascii
    rw [hc] at h
    exact ⟨c, ds, rfl, hc, (List.cons.inj h).2⟩

/-- An ASCII byte behind a text is its last character. -/
theorem chars_of_concat {b : UInt8} (hascii : b.toNat < 128) {bytes : Bytes} {cs : List Char}
    (h : bytes ++ [b] = cs.flatMap String.utf8EncodeChar) :
    ∃ c ds, cs = ds ++ [c] ∧ String.utf8EncodeChar c = [b] ∧
      bytes = ds.flatMap String.utf8EncodeChar := by
  obtain rfl | ⟨ds, c, rfl⟩ := List.eq_nil_or_concat' cs
  · simp at h
  · rw [List.flatMap_append, List.flatMap_singleton] at h
    have hmem : b ∈ String.utf8EncodeChar c := by
      obtain ⟨others, last, hc⟩ :=
        (List.eq_nil_or_concat' (String.utf8EncodeChar c)).resolve_left String.utf8EncodeChar_ne_nil
      rw [hc, ← List.append_assoc] at h
      have hlast : b = last := List.singleton_inj.mp (List.append_inj' h rfl).2
      rw [hc, hlast]
      exact List.mem_append_right _ List.mem_cons_self
    have hc := utf8EncodeChar_of_mem hmem hascii
    rw [hc] at h
    exact ⟨c, ds, rfl, hc, (List.append_inj' h rfl).1⟩

namespace Http

/-- What a reader makes of a header value: its text without white space at both ends. -/
def trimmedText (value : Bytes) : Option (List Char) :=
  (decodeUtf8 value).map fun text => Text.trim text.toList

theorem trimmedText_eq_some_iff {value : Bytes} {text : List Char} :
    trimmedText value = some text ↔
      ∃ cs : List Char, value = cs.flatMap String.utf8EncodeChar ∧ Text.trim cs = text := by
  rw [trimmedText, Option.map_eq_some_iff]
  constructor
  · rintro ⟨whole, hwhole, htrim⟩
    refine ⟨whole.toList, ?_, htrim⟩
    rw [← decodeUtf8_eq_some_ofList, String.ofList_toList, hwhole]
  · rintro ⟨cs, hcs, htrim⟩
    refine ⟨String.ofList cs, decodeUtf8_eq_some_ofList.mpr hcs, ?_⟩
    rw [String.toList_ofList, htrim]

variable {b : UInt8}

theorem isLineBlank_iff : isLineBlank b = true ↔ b = space ∨ b = tab := by
  rw [isLineBlank, Bool.or_eq_true_iff, beq_iff_eq, beq_iff_eq]

theorem toNat_lt_of_isLineBlank (h : isLineBlank b = true) : b.toNat < 128 := by
  rcases isLineBlank_iff.mp h with rfl | rfl <;> decide

/-- A blank of a line is white space in a text. -/
theorem isBlank_of_isLineBlank (h : isLineBlank b = true) {c : Char}
    (hc : String.utf8EncodeChar c = [b]) : Text.isBlank c = true := by
  have hnat := toNat_of_utf8EncodeChar hc
  rcases isLineBlank_iff.mp h with rfl | rfl
  · have hspace : c.toNat = 32 := hnat
    simp [Text.isBlank, hspace]
  · have htab : c.toNat = 9 := hnat
    simp [Text.isBlank, htab]

theorem exists_char_of_isLineBlank (h : isLineBlank b = true) :
    ∃ c, String.utf8EncodeChar c = [b] := by
  rcases isLineBlank_iff.mp h with rfl | rfl
  · exact ⟨' ', by decide⟩
  · exact ⟨'\t', by decide⟩

/-- A blank in front of a value means nothing to its reader. -/
theorem trimmedText_cons (h : isLineBlank b = true) (value : Bytes) :
    trimmedText (b :: value) = trimmedText value := by
  refine Option.ext fun text => ?_
  rw [trimmedText_eq_some_iff, trimmedText_eq_some_iff]
  constructor
  · rintro ⟨cs, hcs, htrim⟩
    obtain ⟨c, ds, rfl, hc, hds⟩ := chars_of_cons (toNat_lt_of_isLineBlank h) hcs
    rw [Text.trim_cons (isBlank_of_isLineBlank h hc)] at htrim
    exact ⟨ds, hds, htrim⟩
  · rintro ⟨cs, hcs, htrim⟩
    obtain ⟨c, hc⟩ := exists_char_of_isLineBlank h
    refine ⟨c :: cs, ?_, ?_⟩
    · rw [List.flatMap_cons, hc, ← hcs]
      rfl
    · rw [Text.trim_cons (isBlank_of_isLineBlank h hc), htrim]

/-- A blank behind a value means nothing to its reader. -/
theorem trimmedText_concat (h : isLineBlank b = true) (value : Bytes) :
    trimmedText (value ++ [b]) = trimmedText value := by
  refine Option.ext fun text => ?_
  rw [trimmedText_eq_some_iff, trimmedText_eq_some_iff]
  constructor
  · rintro ⟨cs, hcs, htrim⟩
    obtain ⟨c, ds, rfl, hc, hds⟩ := chars_of_concat (toNat_lt_of_isLineBlank h) hcs
    rw [Text.trim_concat (isBlank_of_isLineBlank h hc)] at htrim
    exact ⟨ds, hds, htrim⟩
  · rintro ⟨cs, hcs, htrim⟩
    obtain ⟨c, hc⟩ := exists_char_of_isLineBlank h
    refine ⟨cs ++ [c], ?_, ?_⟩
    · rw [List.flatMap_append, List.flatMap_singleton, hc, ← hcs]
    · rw [Text.trim_concat (isBlank_of_isLineBlank h hc), htrim]

/-! ## Stripping -/

/-- A value without the blanks around it. -/
def stripBlanks (value : Bytes) : Bytes :=
  (value.dropWhile isLineBlank).rdropWhile isLineBlank

/-- **What a reader makes of a value** is the same with and without the blanks around it. -/
theorem trimmedText_stripBlanks (value : Bytes) :
    trimmedText (stripBlanks value) = trimmedText value := by
  have hfront : ∀ bytes : Bytes,
      trimmedText (bytes.dropWhile isLineBlank) = trimmedText bytes := by
    intro bytes
    induction bytes with
    | nil => rfl
    | cons b bytes ih =>
      by_cases hb : isLineBlank b = true
      · rw [List.dropWhile_cons_of_pos hb, ih, trimmedText_cons hb]
      · rw [List.dropWhile_cons_of_neg hb]
  have hback : ∀ bytes : Bytes,
      trimmedText (bytes.rdropWhile isLineBlank) = trimmedText bytes := by
    intro bytes
    induction bytes using List.reverseRecOn with
    | nil => rfl
    | append_singleton bytes b ih =>
      by_cases hb : isLineBlank b = true
      · rw [List.rdropWhile_concat_pos _ _ _ hb, ih, trimmedText_concat hb]
      · rw [List.rdropWhile_concat_neg _ _ _ hb]
  rw [stripBlanks, hback, hfront]

end Http

end SniffProxy
