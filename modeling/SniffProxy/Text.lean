/-!
# Text

Operations on lists of characters that the address, header, rule and configuration readers share:
trimming, cutting at a mark, ASCII case and decimal numerals.

* `trim` removes Unicode white space from both ends.
* `cutFirst`, `cutLast` — the parts around the first and the last occurrence of a mark.
* `readNatUpTo` — a decimal numeral with an optional plus sign and a bound on its value.
-/

namespace SniffProxy.Text

/-! ## White space -/

/-- The characters with the Unicode property `White_Space`. -/
def isBlank (c : Char) : Bool :=
  let n := c.toNat
  (9 ≤ n && n ≤ 13) || n = 0x20 || n = 0x85 || n = 0xA0 || n = 0x1680 ||
    (0x2000 ≤ n && n ≤ 0x200A) || n = 0x2028 || n = 0x2029 || n = 0x202F || n = 0x205F || n = 0x3000

/-- The text without the longest tail of characters in the class. -/
def dropEndWhile (p : Char → Bool) (cs : List Char) : List Char :=
  (cs.reverse.dropWhile p).reverse

/-- The text without leading and trailing white space. -/
def trim (cs : List Char) : List Char :=
  dropEndWhile isBlank (cs.dropWhile isBlank)

/-! ## ASCII case -/

/-- The text with the letters A to Z made small; no other character changes. -/
def asciiLower (cs : List Char) : List Char :=
  cs.map Char.toLower

/-! ## Cutting at a mark -/

/-- The parts before and after the first occurrence of the mark. -/
def cutFirst (mark : Char) : List Char → Option (List Char × List Char)
  | [] => none
  | c :: rest =>
    if c = mark then some ([], rest)
    else (cutFirst mark rest).map fun (before, after) => (c :: before, after)

/-- The parts before and after the last occurrence of the mark. -/
def cutLast (mark : Char) : List Char → Option (List Char × List Char)
  | [] => none
  | c :: rest =>
    match cutLast mark rest with
    | some (before, after) => some (c :: before, after)
    | none => if c = mark then some ([], rest) else none

/-- All the pieces between the marks; one more than there are marks. -/
def splitAt (mark : Char) : List Char → List (List Char)
  | [] => [[]]
  | c :: rest =>
    if c = mark then [] :: splitAt mark rest
    else
      match splitAt mark rest with
      | [] => [[c]]
      | piece :: pieces => (c :: piece) :: pieces

theorem splitAt_of_not_mem {mark : Char} {cs : List Char} (h : mark ∉ cs) :
    splitAt mark cs = [cs] := by
  induction cs with
  | nil => rfl
  | cons c cs ih =>
    rw [List.mem_cons, not_or] at h
    rw [splitAt, if_neg (Ne.symm h.1), ih h.2]

theorem splitAt_append {mark : Char} {cs : List Char} (h : mark ∉ cs) (rest : List Char) :
    splitAt mark (cs ++ mark :: rest) = cs :: splitAt mark rest := by
  induction cs with
  | nil => rw [List.nil_append, splitAt, if_pos rfl]
  | cons c cs ih =>
    rw [List.mem_cons, not_or] at h
    rw [List.cons_append, splitAt, if_neg (Ne.symm h.1), ih h.2]

theorem cutFirst_eq_some {mark : Char} {cs before after : List Char}
    (h : cutFirst mark cs = some (before, after)) :
    cs = before ++ mark :: after ∧ mark ∉ before := by
  induction cs generalizing before with
  | nil => cases h
  | cons c rest ih =>
    rw [cutFirst] at h
    split at h
    · rename_i hc
      cases h
      simp [hc]
    · rename_i hc
      obtain ⟨⟨b, a⟩, hcut, heq⟩ := Option.map_eq_some_iff.mp h
      cases heq
      obtain ⟨hrest, hmem⟩ := ih hcut
      exact ⟨by rw [hrest]; rfl, by simp [hmem, Ne.symm hc]⟩

/-! ## Decimal numerals -/

/-- The value of a text of decimal digits; none for the empty text. -/
def readNat : List Char → Option Nat
  | [] => none
  | cs =>
    if cs.all Char.isDigit then some (cs.foldl (fun n c => 10 * n + (c.toNat - 48)) 0) else none

/-- The text without a leading plus sign. -/
def dropPlus : List Char → List Char
  | '+' :: rest => rest
  | cs => cs

/-- The value of a decimal numeral with an optional plus sign, if it is at most the bound. -/
def readNatUpTo (bound : Nat) (cs : List Char) : Option Nat :=
  match readNat (dropPlus cs) with
  | some n => if n ≤ bound then some n else none
  | none => none

end SniffProxy.Text
