import SniffProxy.Proofs.Net.Spelling

/-!
# Spellings with one normal form

Rules and hosts are compared in a normal form. Capitals never change it, and neither do blanks
around a host or dots behind it, if the host itself has no white space.

* `Text.asciiLower_trim`, `Text.asciiLower_dropEndWhile_dot` — small letters commute with the cuts.
* `Text.trim_cons`, `Text.trim_concat` — a blank at an end is as good as none.
* `IsSpelling` — other ways to write a host; `IsSpelling.normalizeHost_eq`.
-/

namespace SniffProxy

namespace Text

/-! ## Small letters -/

theorem isBlank_toLower (c : Char) : isBlank c.toLower = isBlank c := by
  obtain h | ⟨hlow, hhigh, hlower⟩ := toLower_eq_self_or_capital c
  · rw [h]
  · have hnot : ∀ d : Char, 65 ≤ d.toNat → d.toNat ≤ 122 → isBlank d = false := by
      intro d hd hd'
      simp only [isBlank, Bool.or_eq_false_iff, Bool.and_eq_false_iff, decide_eq_false_iff_not]
      omega
    rw [hnot c hlow (by omega), hnot c.toLower (by omega) (by omega)]

theorem asciiLower_dropWhile {p : Char → Bool} (hp : ∀ c, p c.toLower = p c) (cs : List Char) :
    asciiLower (cs.dropWhile p) = (asciiLower cs).dropWhile p := by
  rw [asciiLower, asciiLower, List.dropWhile_map]
  congr 2
  funext c
  exact (hp c).symm

theorem asciiLower_dropEndWhile {p : Char → Bool} (hp : ∀ c, p c.toLower = p c) (cs : List Char) :
    asciiLower (dropEndWhile p cs) = dropEndWhile p (asciiLower cs) := by
  have hreverse : ∀ ds : List Char, asciiLower ds.reverse = (asciiLower ds).reverse :=
    fun ds => List.map_reverse
  rw [dropEndWhile, dropEndWhile, hreverse, asciiLower_dropWhile hp, hreverse]

/-- Trimming does not look at the case. -/
theorem asciiLower_trim (cs : List Char) : asciiLower (trim cs) = trim (asciiLower cs) := by
  rw [trim, trim, asciiLower_dropEndWhile isBlank_toLower, asciiLower_dropWhile isBlank_toLower]

theorem asciiLower_dropEndWhile_dot (cs : List Char) :
    asciiLower (dropEndWhile (· = '.') cs) = dropEndWhile (· = '.') (asciiLower cs) :=
  asciiLower_dropEndWhile (fun _ => decide_eq_decide.mpr (toLower_eq_iff_of_lt (by decide))) cs

/-! ## Cutting -/

theorem dropEndWhile_append {p : Char → Bool} {tail : List Char} (h : ∀ c ∈ tail, p c = true)
    (cs : List Char) : dropEndWhile p (cs ++ tail) = dropEndWhile p cs := by
  rw [dropEndWhile, dropEndWhile, List.reverse_append,
    List.dropWhile_append_of_pos fun c hc => h c (List.mem_reverse.mp hc)]

theorem trim_cons {c : Char} (hc : isBlank c = true) (cs : List Char) :
    trim (c :: cs) = trim cs := by
  rw [trim, trim, List.dropWhile_cons_of_pos hc]

theorem trim_concat {c : Char} (hc : isBlank c = true) (cs : List Char) :
    trim (cs ++ [c]) = trim cs := by
  have hlast : ∀ d ∈ [c], isBlank d = true := fun d hd => List.mem_singleton.mp hd ▸ hc
  rw [trim, trim, List.dropWhile_append]
  split
  · rename_i hnothing
    rw [List.isEmpty_iff.mp hnothing, List.dropWhile_cons_of_pos hc]
    rfl
  · exact dropEndWhile_append hlast _

/-- Trimming takes off just the blanks around a text without blanks. -/
theorem trim_padded {left middle right : List Char} (hleft : ∀ c ∈ left, isBlank c = true)
    (hmiddle : ∀ c ∈ middle, isBlank c = false) (hright : ∀ c ∈ right, isBlank c = true) :
    trim (left ++ middle ++ right) = middle := by
  have hfront : (left ++ middle ++ right).dropWhile isBlank =
      (middle ++ right).dropWhile isBlank := by
    rw [List.append_assoc, List.dropWhile_append_of_pos hleft]
  rw [trim, hfront]
  cases middle with
  | nil =>
    have hnothing : (right ++ []).dropWhile isBlank = [] := List.dropWhile_append_of_pos hright
    rw [List.append_nil] at hnothing
    rw [List.nil_append, hnothing]
    rfl
  | cons c middle =>
    have hhead : ∀ d ∈ (c :: middle ++ right).head?, isBlank d = false := by
      rintro d hd
      cases hd
      exact hmiddle c List.mem_cons_self
    rw [dropWhile_of_head hhead, dropEndWhile_append hright]
    exact dropEndWhile_of_last fun d hd => hmiddle d (List.mem_of_getLast? hd)

end Text

/-! ## Spellings -/

/-- Another way to write a host: with other capitals, and if the host has no white space, also with
blanks around it and dots behind it. -/
def IsSpelling (host other : String) : Prop :=
  Text.asciiLower other.toList = Text.asciiLower host.toList ∨
    (∀ c ∈ host.toList, Text.isBlank c = false) ∧ ∃ left spelled dots right,
      other.toList = left ++ (spelled ++ dots) ++ right ∧
      Text.asciiLower spelled = Text.asciiLower host.toList ∧
      (∀ c ∈ dots, c = '.') ∧ (∀ c ∈ left, Text.isBlank c = true) ∧
      ∀ c ∈ right, Text.isBlank c = true

/-- Small letters may be made first. -/
theorem normalizeHost_eq (text : String) :
    normalizeHost text =
      Text.dropEndWhile (· = '.') (Text.trim (Text.asciiLower text.toList)) := by
  rw [normalizeHost, Text.asciiLower_dropEndWhile_dot, Text.asciiLower_trim]

/-- **Spellings of a host have its normal form.** -/
theorem IsSpelling.normalizeHost_eq {host other : String} (h : IsSpelling host other) :
    normalizeHost other = normalizeHost host := by
  obtain hcase | ⟨hhost, left, spelled, dots, right, hother, hspelled, hdots, hleft, hright⟩ := h
  · rw [SniffProxy.normalizeHost_eq, hcase, ← SniffProxy.normalizeHost_eq]
  · have hplain : ∀ c ∈ spelled, Text.isBlank c = false := by
      intro c hc
      have hlower : c.toLower ∈ Text.asciiLower host.toList :=
        hspelled ▸ List.mem_map_of_mem hc
      obtain ⟨d, hd, heq⟩ := List.mem_map.mp hlower
      rw [← Text.isBlank_toLower c, ← heq, Text.isBlank_toLower]
      exact hhost d hd
    have hmiddle : ∀ c ∈ spelled ++ dots, Text.isBlank c = false := by
      refine List.forall_mem_append.mpr ⟨hplain, fun c hc => ?_⟩
      rw [hdots c hc]
      decide
    have hself : Text.trim host.toList = host.toList := by
      simpa using @Text.trim_padded [] host.toList [] (by simp) hhost (by simp)
    have hdot : ∀ c ∈ dots, decide (c = '.') = true := fun c hc => decide_eq_true (hdots c hc)
    rw [normalizeHost, normalizeHost, hother, Text.trim_padded hleft hmiddle hright,
      Text.dropEndWhile_append hdot, hself, Text.asciiLower_dropEndWhile_dot, hspelled,
      Text.asciiLower_dropEndWhile_dot]

end SniffProxy
