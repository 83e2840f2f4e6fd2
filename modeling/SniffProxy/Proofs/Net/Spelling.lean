import SniffProxy.Proofs.Net.Printing
import SniffProxy.Rule.Set

/-!
# How literals are spelled

Whatever the readers of IP addresses take has no white space, no star and no dot at its end. So the
normal form that rules and hosts are compared in takes nothing off a literal: it only makes its
hexadecimal letters small.

* `Text.Strips` — a bare text is taken off the front.
* `Host.bare_of_ofLiteral?` — literals are bare, with or without brackets.
* `normalizeHost_of_literal` — their normal form.
-/

namespace SniffProxy

/-! ## Bare texts -/

namespace Text

/-- No white space, no star, and no dot at the end. -/
structure Bare (cs : List Char) : Prop where
  chars : ∀ c ∈ cs, isBlank c = false ∧ c ≠ '*'
  last : cs.getLast? ≠ some '.'

theorem bare_nil : Bare [] :=
  ⟨by simp, by simp⟩

theorem bare_single {c : Char} (h : isBlank c = false ∧ c ≠ '*' ∧ c ≠ '.') : Bare [c] :=
  ⟨by simp [h], by simp [h]⟩

theorem Bare.append {front back : List Char} (hfront : Bare front) (hback : Bare back) :
    Bare (front ++ back) where
  chars := List.forall_mem_append.mpr ⟨hfront.chars, hback.chars⟩
  last := by
    rw [List.getLast?_append]
    cases hlast : back.getLast? with
    | none => simpa using hfront.last
    | some c => simpa [hlast] using hback.last

/-- A dot may stand before another character. -/
theorem Bare.dot {cs : List Char} (h : Bare cs) (hne : cs ≠ []) : Bare ('.' :: cs) where
  chars := List.forall_mem_cons.mpr ⟨by decide, h.chars⟩
  last := by
    rw [List.getLast?_cons_of_ne_nil hne]
    exact h.last

theorem isHex_cases {c : Char} (h : (hexValue? c).isSome = true) :
    (48 ≤ c.toNat ∧ c.toNat ≤ 57) ∨ (97 ≤ c.toNat ∧ c.toNat ≤ 102) ∨
      (65 ≤ c.toNat ∧ c.toNat ≤ 70) := by
  unfold hexValue? at h
  simp only [Char.le_def, UInt32.le_iff_toNat_le] at h
  split at h
  · rename_i hdigit
    exact .inl hdigit
  · split at h
    · rename_i hsmall
      exact .inr (.inl hsmall)
    · split at h
      · rename_i hcapital
        exact .inr (.inr hcapital)
      · cases h

theorem isHex_bare {c : Char} (h : (hexValue? c).isSome = true) :
    isBlank c = false ∧ c ≠ '*' ∧ c ≠ '.' := by
  have hcases := isHex_cases h
  refine ⟨?_, ?_, ?_⟩
  · simp only [isBlank, Bool.or_eq_false_iff, Bool.and_eq_false_iff, decide_eq_false_iff_not]
    omega
  · rintro rfl
    revert hcases
    decide
  · rintro rfl
    revert hcases
    decide

theorem bare_of_hex {cs : List Char} (h : ∀ c ∈ cs, (hexValue? c).isSome = true) : Bare cs where
  chars := fun c hc => ⟨(isHex_bare (h c hc)).1, (isHex_bare (h c hc)).2.1⟩
  last := fun hlast => (isHex_bare (h '.' (List.mem_of_getLast? hlast))).2.2 rfl

/-- A bare text stands before the rest. -/
def Strips (cs rest : List Char) : Prop :=
  ∃ front, cs = front ++ rest ∧ Bare front

theorem Strips.trans {cs middle rest : List Char} (h : Strips cs middle)
    (hlater : Strips middle rest) : Strips cs rest := by
  obtain ⟨front, rfl, hfront⟩ := h
  obtain ⟨next, rfl, hnext⟩ := hlater
  exact ⟨front ++ next, by rw [List.append_assoc], hfront.append hnext⟩

theorem Strips.bare {cs : List Char} (h : Strips cs []) : Bare cs := by
  obtain ⟨front, rfl, hfront⟩ := h
  simpa using hfront

end Text

/-! ## Readers -/

namespace Ipv4

open Text (Bare Strips)

theorem isHex_of_isDigit {c : Char} (h : c.isDigit = true) : (hexValue? c).isSome = true := by
  rw [Ipv6.hexValue?_of_isDigit h]
  rfl

theorem readOctet_strips {cs rest : List Char} {n : UInt8} (h : readOctet cs = some (n, rest)) :
    ∃ digits, cs = digits ++ rest ∧ Bare digits ∧ digits ≠ [] := by
  obtain ⟨digits, hcs, hdigits, hne, -⟩ := readOctet_spec h
  exact ⟨digits, hcs, Text.bare_of_hex fun c hc => isHex_of_isDigit (hdigits c hc), hne⟩

theorem readDotOctet_strips {cs rest : List Char} {n : UInt8}
    (h : readDotOctet cs = some (n, rest)) : Strips cs rest := by
  obtain ⟨more, rfl, hoctet⟩ := readDotOctet_spec h
  obtain ⟨digits, rfl, hbare, hne⟩ := readOctet_strips hoctet
  exact ⟨'.' :: digits, rfl, hbare.dot hne⟩

theorem readPrefix_strips {cs rest : List Char} {ip : Ipv4} (h : readPrefix cs = some (ip, rest)) :
    Strips cs rest := by
  obtain ⟨r₁, r₂, r₃, ha, hb, hc, hd⟩ := readPrefix_spec h
  obtain ⟨digits, hcs, hbare, -⟩ := readOctet_strips ha
  have hfirst : Strips cs r₁ := ⟨digits, hcs, hbare⟩
  exact ((hfirst.trans (readDotOctet_strips hb)).trans (readDotOctet_strips hc)).trans
    (readDotOctet_strips hd)

theorem bare_of_ofChars? {cs : List Char} {ip : Ipv4} (h : ofChars? cs = some ip) : Bare cs :=
  (readPrefix_strips (readPrefix_of_ofChars? h)).bare

end Ipv4

namespace Ipv6

open Text (Bare Strips)

theorem bare_colon : Bare [':'] :=
  Text.bare_single (by decide)

theorem readGroup_strips {cs rest : List Char} {g : UInt16} (h : readGroup cs = some (g, rest)) :
    Strips cs rest := by
  obtain ⟨digits, hcs, hhex, -⟩ := readGroup_spec h
  exact ⟨digits, hcs, Text.bare_of_hex hhex⟩

theorem afterColon_strips {first : Bool} {cs body : List Char}
    (h : afterColon first cs = some body) : Strips cs body := by
  obtain rfl | rfl := afterColon_spec h
  · exact ⟨[], rfl, Text.bare_nil⟩
  · exact ⟨[':'], rfl, bare_colon⟩

theorem readGroups_strips (limit : Nat) (first : Bool) (cs : List Char) :
    Strips cs (readGroups limit first cs).rest := by
  induction limit generalizing first cs with
  | zero => exact ⟨[], rfl, Text.bare_nil⟩
  | succ limit ih =>
    rcases readGroups_cases limit first cs with
      h | ⟨body, ip, rest, hbody, _, hip, h⟩ | ⟨body, g, rest, hbody, hg, h⟩ <;> rw [h]
    · exact ⟨[], rfl, Text.bare_nil⟩
    · exact (afterColon_strips hbody).trans (Ipv4.readPrefix_strips hip)
    · exact ((afterColon_strips hbody).trans (readGroup_strips hg)).trans (ih false rest)

theorem bare_of_ofChars? {cs : List Char} {ip : Ipv6} (h : ofChars? cs = some ip) : Bare cs := by
  have hfront := readGroups_strips 8 true cs
  obtain ⟨-, hrest⟩ | ⟨-, -, body, hrest, hend⟩ := ofChars?_cases h
  · exact (hrest ▸ hfront).bare
  · have hcolons : Strips (':' :: ':' :: body) body :=
      ⟨[':', ':'], rfl, bare_colon.append bare_colon⟩
    have hback := readGroups_strips (8 - ((readGroups 8 true cs).groups.length + 1)) true body
    rw [hrest] at hfront
    rw [hend] at hback
    exact ((hfront.trans hcolons).trans hback).bare

end Ipv6

/-! ## Hosts -/

namespace Host

open Text (Bare)

theorem bare_of_unbracket {cs : List Char} (h : Bare (unbracket cs)) : Bare cs := by
  obtain heq | heq := unbracket_cases cs
  · exact heq ▸ h
  · have hopen : Bare ['['] := Text.bare_single (by decide)
    have hclose : Bare [']'] := Text.bare_single (by decide)
    rw [heq]
    exact (hopen.append h).append hclose

/-- **Literals are bare**, with or without brackets. -/
theorem bare_of_ofLiteral? {cs : List Char} {host : Host} (h : ofLiteral? cs = some host) :
    Bare cs := by
  obtain ⟨ip, hip⟩ | ⟨ip, hip⟩ := ofLiteral?_cases h
  · exact Ipv4.bare_of_ofChars? hip
  · exact bare_of_unbracket (Ipv6.bare_of_ofChars? hip)

end Host

/-! ## Normal forms -/

namespace Text

theorem dropWhile_of_head {p : Char → Bool} {cs : List Char} (h : ∀ c ∈ cs.head?, p c = false) :
    cs.dropWhile p = cs := by
  cases cs with
  | nil => rfl
  | cons c rest => simp [h c rfl]

theorem dropEndWhile_of_last {p : Char → Bool} {cs : List Char}
    (h : ∀ c ∈ cs.getLast?, p c = false) : dropEndWhile p cs = cs := by
  rw [dropEndWhile, dropWhile_of_head (by simpa using h), List.reverse_reverse]

theorem trim_of_bare {cs : List Char} (h : Bare cs) : trim cs = cs := by
  rw [trim, dropWhile_of_head fun c hc => (h.chars c (List.mem_of_head? hc)).1]
  exact dropEndWhile_of_last fun c hc => (h.chars c (List.mem_of_getLast? hc)).1

theorem toLower_eq_self_or_capital (c : Char) :
    c.toLower = c ∨ (65 ≤ c.toNat ∧ c.toNat ≤ 90 ∧ c.toLower.toNat = c.toNat + 32) := by
  unfold Char.toLower
  split
  · rename_i hcapital
    simp only [ge_iff_le, UInt32.le_iff_toNat_le] at hcapital
    refine .inr ⟨hcapital.1, hcapital.2, ?_⟩
    simp only [Char.toNat, UInt32.toNat_add] at hcapital ⊢
    simp at hcapital ⊢
    omega
  · exact .inl rfl

/-- Signs that stand before the letters are no small letters. -/
theorem toLower_eq_iff_of_lt {c sign : Char} (h : sign.toNat < 65) : c.toLower = sign ↔ c = sign := by
  obtain hsame | ⟨hlow, -, hlower⟩ := toLower_eq_self_or_capital c
  · rw [hsame]
  · refine ⟨fun heq => ?_, fun heq => ?_⟩
    · rw [heq] at hlower
      omega
    · rw [heq] at hlow
      omega

theorem star_not_mem_asciiLower {cs : List Char} (h : Bare cs) : '*' ∉ asciiLower cs := by
  intro hmem
  obtain ⟨c, hc, hlower⟩ := List.mem_map.mp hmem
  exact (h.chars c hc).2 ((toLower_eq_iff_of_lt (by decide)).mp hlower)

end Text

theorem normalizeHost_of_bare {text : String} (h : Text.Bare text.toList) :
    normalizeHost text = Text.asciiLower text.toList := by
  rw [normalizeHost, Text.trim_of_bare h, Text.dropEndWhile_of_last]
  rintro c hc
  refine decide_eq_false fun hdot => h.last ?_
  exact hdot ▸ hc

end SniffProxy
