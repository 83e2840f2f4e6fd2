import SniffProxy.Config.Basic
import SniffProxy.Proofs.Net.Printing

/-!
# Host and port texts

A text either names no port, or has a part behind its host where a port belongs, or is neither. The
first kind stands for the default port, the second is read if that part is a numeral of a port, and
the third is refused. So every way of writing a host and a port is read back.

* `Text.cutFirst_append`, `Text.cutLast_eq_some_iff` — where a text is cut.
* `HostPort.IsNumeral` — the numerals of a port; `HostPort.readPort_eq_some_iff` reads just them.
* `HostPort.Portless`, `HostPort.Ported` — the two kinds of text that have a host.
* `HostPort.split_eq_some_iff` — what becomes of every text.
* `HostPort.split_join`, `HostPort.split_listenAddress` — what is written is read back.
* `HostPort.split_reads` — all ways of writing, and nothing else.
-/

namespace SniffProxy

namespace Text

/-! ## Cutting -/

variable {mark : Char} {cs before after : List Char}

theorem cutFirst_append (hmark : mark ∉ before) (after : List Char) :
    cutFirst mark (before ++ mark :: after) = some (before, after) := by
  induction before with
  | nil => rw [List.nil_append, cutFirst, if_pos rfl]
  | cons c before ih =>
    rw [List.mem_cons, not_or] at hmark
    rw [List.cons_append, cutFirst, if_neg (Ne.symm hmark.1), ih hmark.2]
    rfl

theorem cutLast_eq_none_iff : cutLast mark cs = none ↔ mark ∉ cs := by
  induction cs with
  | nil => simp [cutLast]
  | cons c cs ih =>
    rw [cutLast, List.mem_cons, not_or, ← ih]
    cases cutLast mark cs with
    | some parts => simp
    | none =>
      by_cases hc : c = mark
      · simp [hc]
      · simp [hc, Ne.symm hc]

theorem cutLast_append (before : List Char) (hmark : mark ∉ after) :
    cutLast mark (before ++ mark :: after) = some (before, after) := by
  induction before with
  | nil => rw [List.nil_append, cutLast, cutLast_eq_none_iff.mpr hmark, if_pos rfl]
  | cons c before ih => rw [List.cons_append, cutLast, ih]

theorem cutLast_eq_some_iff :
    cutLast mark cs = some (before, after) ↔ cs = before ++ mark :: after ∧ mark ∉ after := by
  constructor
  · intro h
    induction cs generalizing before with
    | nil => cases h
    | cons c cs ih =>
      rw [cutLast] at h
      split at h
      · rename_i front back hcut
        cases h
        obtain ⟨rfl, hmark⟩ := ih hcut
        exact ⟨rfl, hmark⟩
      · rename_i hnone
        split at h
        · rename_i hc
          cases h
          exact ⟨by rw [hc]; rfl, cutLast_eq_none_iff.mp hnone⟩
        · cases h
  · rintro ⟨rfl, hmark⟩
    exact cutLast_append before hmark

/-! ## Numerals -/

theorem readNat_eq_some_iff {cs : List Char} {n : Nat} :
    readNat cs = some n ↔
      cs ≠ [] ∧ (∀ c ∈ cs, c.isDigit = true) ∧ Nat.ofDigitChars 10 cs 0 = n := by
  unfold readNat
  split
  · simp
  · rename_i hne
    rw [Nat.ofDigitChars_eq_foldl, ← List.all_eq_true]
    split
    · rename_i hdigits
      simp only [Option.some.injEq, hdigits, true_and]
      exact ⟨fun h => ⟨hne, h⟩, And.right⟩
    · rename_i hother
      simp [hother]

theorem readNatUpTo_eq_some_iff {bound n : Nat} {cs : List Char} :
    readNatUpTo bound cs = some n ↔ readNat (dropPlus cs) = some n ∧ n ≤ bound := by
  unfold readNatUpTo
  split
  · rename_i m hread
    rw [hread, Option.some.injEq]
    split
    · rename_i hle
      rw [Option.some.injEq]
      exact ⟨fun h => ⟨h, h ▸ hle⟩, And.left⟩
    · rename_i hlarge
      refine ⟨nofun, ?_⟩
      rintro ⟨rfl, hle⟩
      exact absurd hle hlarge
  · rename_i hread
    rw [hread]
    simp

/-- A sign may stand in front of a numeral. -/
theorem dropPlus_eq_iff {cs digits : List Char} (h : ∀ c ∈ digits, c.isDigit = true) :
    dropPlus cs = digits ↔ cs = digits ∨ cs = '+' :: digits := by
  constructor
  · rintro rfl
    unfold dropPlus
    split
    · exact .inr rfl
    · exact .inl rfl
  · rintro (rfl | rfl)
    · exact dropPlus_of_isDigit h
    · rfl

end Text

namespace HostPort

/-! ## Ports -/

/-- The numerals of a port: digits with its value, and maybe a plus sign in front. -/
def IsNumeral (cs : List Char) (port : Port) : Prop :=
  ∃ digits, (cs = digits ∨ cs = '+' :: digits) ∧ digits ≠ [] ∧
    (∀ c ∈ digits, c.isDigit = true) ∧ Nat.ofDigitChars 10 digits 0 = port.toNat

theorem readPort_eq_some_iff {cs : List Char} {port : Port} :
    readPort cs = some port ↔ IsNumeral cs port := by
  have hport := port.toNat_lt
  have hread : readPort cs = some port ↔ Text.readNat (Text.dropPlus cs) = some port.toNat := by
    rw [readPort, Option.map_eq_some_iff]
    constructor
    · rintro ⟨n, hn, rfl⟩
      obtain ⟨hn, hle⟩ := Text.readNatUpTo_eq_some_iff.mp hn
      rwa [UInt16.toNat_ofNat_of_lt' (Nat.lt_succ_of_le hle)]
    · intro h
      exact ⟨port.toNat, Text.readNatUpTo_eq_some_iff.mpr ⟨h, by omega⟩, UInt16.ofNat_toNat⟩
  rw [hread, Text.readNat_eq_some_iff]
  constructor
  · rintro ⟨hne, hdigits, hvalue⟩
    exact ⟨_, (Text.dropPlus_eq_iff hdigits).mp rfl, hne, hdigits, hvalue⟩
  · rintro ⟨digits, hcs, hne, hdigits, hvalue⟩
    rw [(Text.dropPlus_eq_iff hdigits).mpr hcs]
    exact ⟨hne, hdigits, hvalue⟩

theorem readPort_toDigits (port : Port) : readPort (Nat.toDigits 10 port.toNat) = some port := by
  have hport := port.toNat_lt
  rw [readPort, Text.readNatUpTo_toDigits (by omega), Option.map_some, UInt16.ofNat_toNat]

/-! ## The kinds of text -/

/-- A host that can stand without brackets before a port. -/
def Plain (host : List Char) : Prop :=
  ':' ∉ host ∧ host.head? ≠ some '['

/-- The ways of writing a host alone. -/
inductive Portless : List Char → List Char → Prop
  | plain {host : List Char} : Plain host → Portless host host
  | bracketed {host : List Char} : ']' ∉ host → Portless ('[' :: (host ++ [']'])) host
  /-- Two colons without a bracket make a bare IPv6 literal. -/
  | literal {host : List Char} : host.head? ≠ some '[' → 2 ≤ host.count ':' → Portless host host

/-- The ways of writing a host and a text in the place of its port. -/
inductive Ported : List Char → List Char → List Char → Prop
  | plain {host part : List Char} : Plain host → ':' ∉ part → Ported (host ++ ':' :: part) host part
  | bracketed {host part : List Char} :
      ']' ∉ host → Ported ('[' :: (host ++ ']' :: ':' :: part)) host part

variable {cs host part : List Char} {default port : Port}

theorem splitChars_unbracketed (h : cs.head? ≠ some '[') : splitChars cs default =
    match Text.cutLast ':' cs with
    | none => some (cs, default)
    | some (host, part) =>
      if ':' ∈ host then some (cs, default) else (readPort part).map fun p => (host, p) := by
  unfold splitChars
  split
  · exact absurd rfl h
  · rfl

/-- Two colons are one in front of the last. -/
theorem two_le_count_colon_iff {front back : List Char} (h : ':' ∉ back) :
    2 ≤ (front ++ ':' :: back).count ':' ↔ ':' ∈ front := by
  rw [List.count_append, List.count_cons_self, List.count_eq_zero.mpr h, ← List.count_pos_iff]
  omega

theorem Portless.splitChars (h : Portless cs host) :
    HostPort.splitChars cs default = some (host, default) := by
  cases h with
  | plain hhost =>
    rw [splitChars_unbracketed hhost.2, Text.cutLast_eq_none_iff.mpr hhost.1]
  | bracketed hhost =>
    simp only [HostPort.splitChars, Text.cutFirst_append hhost]
  | literal hhead hcount =>
    rw [splitChars_unbracketed hhead]
    split
    · rfl
    · rename_i front back hcut
      obtain ⟨rfl, hback⟩ := Text.cutLast_eq_some_iff.mp hcut
      rw [if_pos ((two_le_count_colon_iff hback).mp hcount)]

/-- Whether a text starts with a bracket is decided in front of its colon. -/
theorem head?_append_colon (host part : List Char) :
    (host ++ ':' :: part).head? ≠ some '[' ↔ host.head? ≠ some '[' := by
  cases host with
  | nil => simp
  | cons c host => rfl

theorem Ported.splitChars (h : Ported cs host part) :
    HostPort.splitChars cs default = (readPort part).map fun p => (host, p) := by
  cases h with
  | plain hhost hpart =>
    rw [splitChars_unbracketed ((head?_append_colon host part).mpr hhost.2),
      Text.cutLast_append host hpart]
    dsimp only
    rw [if_neg hhost.1]
  | bracketed hhost =>
    simp only [HostPort.splitChars, Text.cutFirst_append hhost]

/-- A text without a bracket in front is of one of the two kinds. -/
theorem unbracketed_cases (h : cs.head? ≠ some '[') :
    (∃ host, Portless cs host) ∨ ∃ host part, Ported cs host part := by
  cases hcut : Text.cutLast ':' cs with
  | none => exact .inl ⟨cs, .plain ⟨Text.cutLast_eq_none_iff.mp hcut, h⟩⟩
  | some parts =>
    obtain ⟨front, back⟩ := parts
    obtain ⟨rfl, hback⟩ := Text.cutLast_eq_some_iff.mp hcut
    by_cases hfront : ':' ∈ front
    · exact .inl ⟨_, .literal h ((two_le_count_colon_iff hback).mpr hfront)⟩
    · have hhead := (head?_append_colon front back).mp h
      exact .inr ⟨front, back, .plain ⟨hfront, hhead⟩ hback⟩

/-- A text with one colon is no host alone, unless it starts with a bracket. -/
theorem Portless.bracket_or_count_ne_one (h : Portless cs host) :
    cs.head? = some '[' ∨ cs.count ':' ≠ 1 := by
  cases h with
  | plain hhost =>
    rw [List.count_eq_zero.mpr hhost.1]
    exact .inr (by decide)
  | bracketed => exact .inl rfl
  | literal _ hcount => exact .inr (by omega)

/-- **Only texts of the two kinds are read.** -/
theorem portless_or_ported {target : List Char × Port}
    (h : splitChars cs default = some target) :
    (∃ host, Portless cs host) ∨ ∃ host part, Ported cs host part := by
  by_cases hhead : cs.head? = some '['
  · obtain ⟨rest, rfl⟩ := List.head?_eq_some_iff.mp hhead
    simp only [splitChars] at h
    split at h
    · cases h
    · rename_i host hcut
      obtain ⟨rfl, hhost⟩ := Text.cutFirst_eq_some hcut
      exact .inl ⟨host, .bracketed hhost⟩
    · rename_i host part hcut
      obtain ⟨rfl, hhost⟩ := Text.cutFirst_eq_some hcut
      exact .inr ⟨host, part, .bracketed hhost⟩
    · cases h
  · exact unbracketed_cases hhead

/-- **What becomes of every text**: it is a host alone, which stands for the default port, or its
port is read; no other text is. -/
theorem splitChars_eq_some_iff : splitChars cs default = some (host, port) ↔
    (Portless cs host ∧ port = default) ∨ ∃ part, Ported cs host part ∧ IsNumeral part port := by
  constructor
  · intro h
    obtain ⟨front, hfront⟩ | ⟨front, part, hfront⟩ := portless_or_ported h
    · rw [hfront.splitChars] at h
      cases h
      exact .inl ⟨hfront, rfl⟩
    · rw [hfront.splitChars] at h
      obtain ⟨p, hp, heq⟩ := Option.map_eq_some_iff.mp h
      cases heq
      exact .inr ⟨part, hfront, readPort_eq_some_iff.mp hp⟩
  · rintro (⟨hhost, rfl⟩ | ⟨part, hhost, hport⟩)
    · exact hhost.splitChars
    · rw [hhost.splitChars, readPort_eq_some_iff.mpr hport, Option.map_some]

/-! ## Written texts -/

theorem split_eq_some_iff {text : String} {target : HostPort} :
    split text default = some target ↔
      (Portless text.toList target.host.toList ∧ target.port = default) ∨
        ∃ part, Ported text.toList target.host.toList part ∧ IsNumeral part target.port := by
  rw [← splitChars_eq_some_iff, split, Option.map_eq_some_iff]
  constructor
  · rintro ⟨⟨host, port⟩, hread, rfl⟩
    rwa [String.toList_ofList]
  · intro hread
    exact ⟨_, hread, by simp⟩

theorem toList_join (host : String) (port : Port) :
    (join host port).toList = host.toList ++ ':' :: Nat.toDigits 10 port.toNat := by
  have hcolon : ":".toList = [':'] := rfl
  simp [join, hcolon]

theorem toList_brackets (host : String) :
    ("[" ++ host ++ "]").toList = '[' :: (host.toList ++ [']']) := by
  have hopen : "[".toList = ['['] := rfl
  have hclose : "]".toList = [']'] := rfl
  simp [hopen, hclose]

section Written

variable {host : String}

theorem split_plain (h : Plain host.toList) : split host default = some ⟨host, default⟩ :=
  split_eq_some_iff.mpr (.inl ⟨.plain h, rfl⟩)

theorem split_brackets (h : ']' ∉ host.toList) :
    split ("[" ++ host ++ "]") default = some ⟨host, default⟩ := by
  refine split_eq_some_iff.mpr (.inl ⟨?_, rfl⟩)
  rw [toList_brackets]
  exact .bracketed h

/-- **A host and a port are read back** where the host can stand without brackets. -/
theorem split_join (h : Plain host.toList) : split (join host port) default = some ⟨host, port⟩ := by
  have hport := readPort_eq_some_iff.mp (readPort_toDigits port)
  have hcolon : ':' ∉ Nat.toDigits 10 port.toNat := by
    intro hmem
    have hdigit := Text.isDigit_of_mem_toDigits _ hmem
    exact absurd hdigit (by decide)
  refine split_eq_some_iff.mpr (.inr ⟨_, ?_, hport⟩)
  rw [toList_join]
  exact .plain h hcolon

theorem split_join_brackets (h : ']' ∉ host.toList) :
    split (join ("[" ++ host ++ "]") port) default = some ⟨host, port⟩ := by
  have hport := readPort_eq_some_iff.mp (readPort_toDigits port)
  refine split_eq_some_iff.mpr (.inr ⟨_, ?_, hport⟩)
  rw [toList_join, toList_brackets, List.cons_append, List.append_assoc]
  exact .bracketed h

/-- **A listening address is read back** as the host that it was made of and its port. -/
theorem split_listenAddress {sniffers : SnifferSettings}
    (hclose : ']' ∉ sniffers.serve.toList) (hopen : sniffers.serve.toList.head? ≠ some '[') :
    split (sniffers.listenAddress port) default = some ⟨sniffers.serve, port⟩ := by
  unfold SnifferSettings.listenAddress
  split
  · exact split_join_brackets hclose
  · rename_i hcolon
    exact split_join ⟨hcolon, hopen⟩

end Written

/-- **Host and port texts are read as they are written.** A host without a colon or an opening
bracket in front may stand alone or before a port, and so may any host in brackets that has no
closing one; two colons without a bracket make the whole text a host. Every other text has a result
only with a numeral of a port behind such a host, and then that host and that port. -/
theorem split_reads (default port : Port) :
    (∀ host : String, ':' ∉ host.toList → host.toList.head? ≠ some '[' →
      split host default = some ⟨host, default⟩ ∧
        split (join host port) default = some ⟨host, port⟩) ∧
    (∀ host : String, ']' ∉ host.toList →
      split ("[" ++ host ++ "]") default = some ⟨host, default⟩ ∧
        split (join ("[" ++ host ++ "]") port) default = some ⟨host, port⟩) ∧
    (∀ text : String, text.toList.head? ≠ some '[' → 2 ≤ text.toList.count ':' →
      split text default = some ⟨text, default⟩) ∧
    (∀ text : String, (∀ host, ¬ Portless text.toList host) → ∀ target,
      split text default = some target ↔
        ∃ part, Ported text.toList target.host.toList part ∧ IsNumeral part target.port) ∧
    (∀ sniffers : SnifferSettings,
      ']' ∉ sniffers.serve.toList → sniffers.serve.toList.head? ≠ some '[' →
        split (sniffers.listenAddress port) default = some ⟨sniffers.serve, port⟩) := by
  refine ⟨fun host hcolon hopen => ⟨split_plain ⟨hcolon, hopen⟩, split_join ⟨hcolon, hopen⟩⟩,
    fun host hclose => ⟨split_brackets hclose, split_join_brackets hclose⟩,
    fun text hopen hcount => split_eq_some_iff.mpr (.inl ⟨.literal hopen hcount, rfl⟩),
    fun text hother target => ?_, fun sniffers => split_listenAddress⟩
  rw [split_eq_some_iff]
  constructor
  · rintro (⟨hhost, -⟩ | hported)
    · exact absurd hhost (hother _)
    · exact hported
  · exact .inr

/-- Names, literals with and without brackets, and a numeral with a sign and a zero in front. -/
theorem split_reads_names_and_literals :
    split "proxy.com" 443 = some ⟨"proxy.com", 443⟩ ∧
      split (join "proxy.com" 65535) 443 = some ⟨"proxy.com", 65535⟩ ∧
      split (join ("[" ++ "::1" ++ "]") 65535) 443 = some ⟨"::1", 65535⟩ ∧
      split "2001:db8::1" 443 = some ⟨"2001:db8::1", 443⟩ ∧
      split "proxy.com:+080" 443 = some ⟨"proxy.com", 80⟩ ∧
      split (SnifferSettings.listenAddress { serve := "::1" } 65535) 443 = some ⟨"::1", 65535⟩ := by
  obtain ⟨hplain, hbrackets, hliteral, hother, hserve⟩ := split_reads 443 65535
  have hname := hplain "proxy.com" (by decide) (by decide)
  have hported : Ported "proxy.com:+080".toList "proxy.com".toList "+080".toList :=
    @Ported.plain "proxy.com".toList "+080".toList ⟨by decide, by decide⟩ (by decide)
  have hnumeral : IsNumeral "+080".toList 80 :=
    ⟨['0', '8', '0'], .inr rfl, by decide, by simp, by decide⟩
  have hnone : ∀ host, ¬ Portless "proxy.com:+080".toList host := by
    intro host hhost
    obtain hbracket | hcount := hhost.bracket_or_count_ne_one
    · exact absurd hbracket (by decide)
    · exact hcount (by decide)
  exact ⟨hname.1, hname.2, (hbrackets "::1" (by decide)).2,
    hliteral "2001:db8::1" (by decide) (by decide),
    (hother _ hnone ⟨"proxy.com", 80⟩).mpr ⟨_, hported, hnumeral⟩,
    hserve { serve := "::1" } (by decide) (by decide)⟩

/-- A port that is one too large is not read as another. -/
example : split "proxy.com:65536" 443 = none := by decide

end HostPort

end SniffProxy
