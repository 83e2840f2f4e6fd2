import SniffProxy.Http.Sniff

/-!
# Verdicts that last

A scanner sees the bytes that have arrived so far. Its verdict on them may be that more bytes are
needed; any other verdict lasts, whatever arrives behind.

* `Scan.extend` — a verdict when more bytes stand behind those that were scanned.
* `Scan.Stable` — a scanner whose verdicts last; `Scan.Stable.andThen` puts two of them together.
* `Head.scan_stable`, `judge_of_beginning` — the scanner of a head, and so what is made of the bytes.
-/

namespace SniffProxy.Http

variable {α β : Type}

namespace Scan

/-- The verdict when more bytes stand behind those that were scanned. -/
def extend (more : Bytes) : Scan α → Scan α
  | incomplete => incomplete
  | faulty fault => faulty fault
  | found value rest => found value (rest ++ more)

/-- A scanner whose verdicts last: unless it asks for more bytes, no bytes behind change them. -/
def Stable (scan : Bytes → Scan α) : Prop :=
  ∀ bytes more, scan bytes ≠ .incomplete → scan (bytes ++ more) = (scan bytes).extend more

theorem stable_found (value : α) : Stable fun rest => .found value rest :=
  fun _ _ _ => rfl

theorem stable_faulty (fault : HeadFault) : Stable fun _ => (.faulty fault : Scan α) :=
  fun _ _ _ => rfl

/-- A scanner may look at one byte first. -/
theorem Stable.of_first {scan : Bytes → Scan α} (hnil : scan [] = .incomplete)
    (hcons : ∀ b, Stable fun rest => scan (b :: rest)) : Stable scan := by
  intro bytes more hdecided
  cases bytes with
  | nil => exact absurd hnil hdecided
  | cons b rest => exact hcons b rest more hdecided

/-- The byte that was looked at may be scanned again. -/
theorem Stable.again {scan : Bytes → Scan α} (h : Stable scan) (b : UInt8) :
    Stable fun rest => scan (b :: rest) :=
  fun rest more => h (b :: rest) more

/-- **One scanner after the other** lasts if both do. -/
theorem Stable.andThen {first : Bytes → Scan α} {next : α → Bytes → Scan β}
    (hfirst : Stable first) (hnext : ∀ value, Stable (next value)) :
    Stable fun bytes => (first bytes).andThen next := by
  intro bytes more hdecided
  dsimp only at hdecided ⊢
  cases hscan : first bytes with
  | incomplete =>
    rw [hscan] at hdecided
    exact absurd rfl hdecided
  | faulty fault =>
    have hmore := hfirst bytes more (by simp [hscan])
    rw [hmore, hscan]
    rfl
  | found value rest =>
    have hmore := hfirst bytes more (by simp [hscan])
    rw [hscan] at hdecided
    rw [hmore, hscan]
    exact hnext value rest more hdecided

end Scan

open Scan (Stable)

/-! ## Lines -/

/-- A line that is not empty is not skipped. -/
theorem skipEmptyLines_of_ne {b : UInt8} (hcr : b ≠ cr) (hlf : b ≠ lf) (rest : Bytes) :
    skipEmptyLines (b :: rest) = .found () (b :: rest) := by
  cases rest <;> simp [skipEmptyLines, hcr, hlf]

theorem skipEmptyLines_stable : Stable skipEmptyLines := by
  intro bytes more
  fun_induction skipEmptyLines bytes with
  | case1 => exact fun h => absurd rfl h
  | case2 b hb => exact fun h => absurd rfl h
  | case3 b hb =>
    intro _
    obtain ⟨hcr, hlf⟩ := not_or.mp hb
    exact skipEmptyLines_of_ne hcr hlf more
  | case4 rest ih =>
    intro h
    simpa [skipEmptyLines] using ih h
  | case5 c rest hc => simp [skipEmptyLines, hc, Scan.extend]
  | case6 c rest hcr ih =>
    intro h
    simpa [skipEmptyLines, hcr] using ih h
  | case7 b c rest hcr hlf => simp [skipEmptyLines, hcr, hlf, Scan.extend]

theorem scanLineEnd_stable (fault : HeadFault) : Stable (scanLineEnd fault) := by
  refine Stable.of_first rfl fun b => ?_
  by_cases hlf : b = lf
  · simp only [scanLineEnd, if_pos hlf]
    exact Scan.stable_found ()
  by_cases hcr : b = cr
  · simp only [scanLineEnd, if_neg hlf, if_pos hcr]
    refine Stable.of_first rfl fun c => ?_
    by_cases hc : c = lf
    · simp only [if_pos hc]
      exact Scan.stable_found ()
    · simp only [if_neg hc]
      exact Scan.stable_faulty fault
  · simp only [scanLineEnd, if_neg hlf, if_neg hcr]
    exact Scan.stable_faulty fault

/-! ## Words -/

/-- The bytes of one class at the front, once a byte of another class is there to end them. -/
theorem span_append {p : UInt8 → Bool} {bytes rest : Bytes} {b : UInt8}
    (h : bytes.dropWhile p = b :: rest) (more : Bytes) :
    (bytes ++ more).takeWhile p = bytes.takeWhile p ∧
      (bytes ++ more).dropWhile p = b :: (rest ++ more) := by
  induction bytes with
  | nil => cases h
  | cons c bytes ih =>
    by_cases hc : p c
    · rw [List.dropWhile_cons_of_pos hc] at h
      obtain ⟨htake, hdrop⟩ := ih h
      rw [List.cons_append, List.takeWhile_cons_of_pos hc, List.takeWhile_cons_of_pos hc,
        List.dropWhile_cons_of_pos hc, htake]
      exact ⟨rfl, hdrop⟩
    · rw [List.dropWhile_cons_of_neg hc] at h
      obtain ⟨rfl, rfl⟩ := List.cons.inj h
      rw [List.cons_append, List.takeWhile_cons_of_neg hc, List.takeWhile_cons_of_neg hc,
        List.dropWhile_cons_of_neg hc]
      exact ⟨rfl, rfl⟩

/-- **A scanner that first takes the bytes of one class** lasts if what follows does. -/
theorem Scan.Stable.span (p : UInt8 → Bool) (scan : Bytes → Bytes → Scan α)
    (hnil : ∀ word, scan word [] = .incomplete) (hscan : ∀ word, Stable (scan word)) :
    Stable fun bytes => scan (bytes.takeWhile p) (bytes.dropWhile p) := by
  intro bytes more hdecided
  dsimp only at hdecided ⊢
  cases hrest : bytes.dropWhile p with
  | nil =>
    rw [hrest] at hdecided
    exact absurd (hnil _) hdecided
  | cons b rest =>
    obtain ⟨hword, hmore⟩ := span_append hrest more
    rw [hrest] at hdecided
    rw [hword, hmore]
    exact hscan _ (b :: rest) more hdecided

/-- Scans the byte that ends a word. -/
def scanWordEnd (ok : Bytes → UInt8 → Prop) [∀ word b, Decidable (ok word b)] (fault : HeadFault)
    (word : Bytes) : Bytes → Scan Bytes
  | [] => .incomplete
  | b :: rest => if ok word b then .found word rest else .faulty fault

/-- A scanner of one word and the byte that ends it. -/
theorem word_stable (p : UInt8 → Bool) (ok : Bytes → UInt8 → Prop)
    [∀ word b, Decidable (ok word b)] (fault : HeadFault) :
    Stable fun bytes => scanWordEnd ok fault (bytes.takeWhile p) (bytes.dropWhile p) := by
  refine Stable.span p (scanWordEnd ok fault) (fun _ => rfl) fun word => ?_
  refine Stable.of_first rfl fun b => ?_
  by_cases hok : ok word b
  · simp only [scanWordEnd, if_pos hok]
    exact Scan.stable_found word
  · simp only [scanWordEnd, if_neg hok]
    exact Scan.stable_faulty fault

theorem scanMethod_eq : scanMethod = fun bytes =>
    scanWordEnd (fun method b => b = space ∧ method ≠ []) .token (bytes.takeWhile isTokenByte)
      (bytes.dropWhile isTokenByte) :=
  rfl

theorem scanTarget_eq : scanTarget = fun bytes =>
    scanWordEnd (fun target b => b = space ∧ target ≠ [] ∧ (decodeUtf8 target).isSome) .token
      (bytes.takeWhile isTargetByte) (bytes.dropWhile isTargetByte) :=
  rfl

theorem scanName_eq : scanName = fun bytes =>
    scanWordEnd (fun name b => b = colon ∧ name ≠ []) .headerName (bytes.takeWhile isTokenByte)
      (bytes.dropWhile isTokenByte) :=
  rfl

theorem scanMethod_stable : Stable scanMethod := by
  rw [scanMethod_eq]
  exact word_stable isTokenByte _ .token

theorem scanTarget_stable : Stable scanTarget := by
  rw [scanTarget_eq]
  exact word_stable isTargetByte _ .token

theorem scanName_stable : Stable scanName := by
  rw [scanName_eq]
  exact word_stable isTokenByte _ .headerName

/-! ## Versions -/

/-- Fewer than eight bytes are the beginning of a version or of none. -/
theorem scanVersion_short {bytes : Bytes} (h : bytes.length < 8) :
    scanVersion bytes = if bytes <+: versionStem then .incomplete else .faulty .version := by
  have htake : bytes.take 8 = bytes := List.take_of_length_le (by omega)
  have hstem : bytes.take 7 = bytes := List.take_of_length_le (by omega)
  simp only [scanVersion, htake, h, if_true, hstem, List.prefix_iff_eq_take]

theorem scanVersion_stable : Stable scanVersion := by
  intro bytes more hdecided
  by_cases hshort : bytes.length < 8
  · -- some byte is wrong already, and it stays where it is
    have hwrong : ¬ bytes <+: versionStem := by
      intro hbegins
      rw [scanVersion_short hshort, if_pos hbegins] at hdecided
      exact hdecided rfl
    have hfront : bytes <+: bytes ++ more := List.prefix_append bytes more
    rw [scanVersion_short hshort, if_neg hwrong]
    by_cases hstill : (bytes ++ more).length < 8
    · rw [scanVersion_short hstill, if_neg fun hbegins => hwrong (hfront.trans hbegins)]
      rfl
    · have hneither : ∀ b, (bytes ++ more).take 8 ≠ versionStem ++ [b] := by
        intro b heq
        have hbytes : bytes <+: versionStem ++ [b] := by
          rw [← heq, List.prefix_take_iff]
          exact ⟨hfront, by omega⟩
        have hstem : versionStem.length = 7 := by decide
        exact hwrong (List.prefix_of_prefix_length_le hbytes (List.prefix_append _ _) (by omega))
      have hlong : ¬ ((bytes ++ more).take 8).length < 8 := by
        rw [List.length_take]
        omega
      simp only [scanVersion, if_neg hlong, if_neg (hneither _)]
      rfl
  · have hlong : ¬ (bytes.take 8).length < 8 := by
      rw [List.length_take]
      omega
    have hfront : (bytes ++ more).take 8 = bytes.take 8 :=
      List.take_append_of_le_length (by omega)
    have hback : (bytes ++ more).drop 8 = bytes.drop 8 ++ more :=
      List.drop_append_of_le_length (by omega)
    simp only [scanVersion, hfront, hback, if_neg hlong]
    split
    · rfl
    · split <;> rfl

/-! ## Header lines -/

theorem scanValue_stable : Stable scanValue := by
  let scan (value : Bytes) (rest : Bytes) : Scan Bytes :=
    (scanLineEnd .headerValue rest).andThen fun _ rest =>
      .found (value.reverse.dropWhile isLineBlank).reverse rest
  have hscan : ∀ value, Stable (scan value) := fun value =>
    (scanLineEnd_stable .headerValue).andThen fun _ => Scan.stable_found _
  exact Stable.span isLineBlank
    (fun _ bytes => scan (bytes.takeWhile isValueByte) (bytes.dropWhile isValueByte))
    (fun _ => rfl) fun _ => Stable.span isValueByte scan (fun _ => rfl) hscan

theorem scanHeaders_stable : ∀ room : Nat, Stable (scanHeaders room) := by
  have hlast : Stable fun bytes => (scanLineEnd .newLine bytes).andThen fun _ rest =>
      .found ([] : List Header) rest :=
    (scanLineEnd_stable .newLine).andThen fun _ => Scan.stable_found _
  intro room
  induction room with
  | zero =>
    refine Stable.of_first rfl fun b => ?_
    by_cases hend : b = cr ∨ b = lf
    · simp only [scanHeaders, if_pos hend]
      exact hlast.again b
    by_cases htoken : isTokenByte b
    · simp only [scanHeaders, if_neg hend, if_pos htoken]
      exact Scan.stable_faulty .tooManyHeaders
    · simp only [scanHeaders, if_neg hend, if_neg htoken]
      exact Scan.stable_faulty .headerName
  | succ room ih =>
    have hline : Stable fun bytes => (scanName bytes).andThen fun name rest =>
        (scanValue rest).andThen fun value rest =>
          (scanHeaders room rest).andThen fun headers rest =>
            .found (⟨name, value⟩ :: headers) rest :=
      scanName_stable.andThen fun _ => scanValue_stable.andThen fun _ =>
        ih.andThen fun _ => Scan.stable_found _
    refine Stable.of_first rfl fun b => ?_
    by_cases hend : b = cr ∨ b = lf
    · simp only [scanHeaders, if_pos hend]
      exact hlast.again b
    · simp only [scanHeaders, if_neg hend]
      exact hline.again b

/-! ## Heads -/

/-- **The verdict on a head lasts.** -/
theorem Head.scan_stable : Stable Head.scan :=
  skipEmptyLines_stable.andThen fun _ =>
    scanMethod_stable.andThen fun _ =>
      scanTarget_stable.andThen fun _ =>
        scanVersion_stable.andThen fun _ =>
          (scanLineEnd_stable .newLine).andThen fun _ =>
            (scanHeaders_stable maxHeaders).andThen fun _ => Scan.stable_found _

/-- What is made of the first bytes is made of all. -/
theorem judge_of_beginning {front bytes : Bytes} {result : Except ProxyError HostPort}
    (h : judge front = some result) (hbegins : front <+: bytes) : judge bytes = some result := by
  obtain ⟨more, rfl⟩ := hbegins
  have hdecided : Head.scan front ≠ .incomplete := by
    intro hscan
    rw [judge, hscan] at h
    cases h
  rw [← h, judge, judge, Head.scan_stable front more hdecided]
  cases Head.scan front <;> rfl

end SniffProxy.Http
