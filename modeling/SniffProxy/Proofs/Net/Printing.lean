import SniffProxy.Proofs.Net.Literal

/-!
# Texts of addresses are read back

The dotted text of an IPv4 address and the text of an IPv6 address, with its zeros left out and its
IPv4 tail, are literals of just these addresses. Each reader is shown to take a written piece off
the front of a text whose rest does not go on with a character of the piece.

* `Ipv4.ofChars?_toString`, `Ipv6.ofChars?_toString` — every address is read back.
* `Ipv6.readGroups_joinGroups` — written groups are read, up to the end or a double colon.
* `Ipv6.toString_cases` — what the text of an IPv6 address looks like.
* `Ipv6.toString_plain` — it is no IPv4 literal and has no brackets.
-/

namespace SniffProxy

namespace Text

/-! ## Runs of characters -/

/-- A text does not go on in the class. -/
def StopsAt (p : Char → Bool) (rest : List Char) : Prop :=
  ∀ c ∈ rest.head?, p c = false

theorem stopsAt_nil (p : Char → Bool) : StopsAt p [] := nofun

theorem stopsAt_cons {p : Char → Bool} {c : Char} (h : p c = false) (rest : List Char) :
    StopsAt p (c :: rest) := by
  intro d hd
  cases hd
  exact h

theorem takeWhile_of_stopsAt {p : Char → Bool} {front rest : List Char}
    (hfront : ∀ c ∈ front, p c = true) (hrest : StopsAt p rest) :
    (front ++ rest).takeWhile p = front ∧ (front ++ rest).dropWhile p = rest := by
  rw [List.takeWhile_append_of_pos hfront, List.dropWhile_append_of_pos hfront]
  cases rest with
  | nil => simp
  | cons c rest =>
    have hc : p c = false := hrest c rfl
    rw [List.takeWhile_cons_of_neg (by simp [hc]), List.dropWhile_cons_of_neg (by simp [hc])]
    simp

theorem takeWhile_eq_nil {p : Char → Bool} {rest : List Char} (h : StopsAt p rest) :
    rest.takeWhile p = [] := by
  have hnil : ∀ c ∈ ([] : List Char), p c = true := nofun
  exact (takeWhile_of_stopsAt hnil h).1

/-! ## Digits -/

/-- No numeral has a superfluous zero in front. -/
theorem head?_toDigits_ne_zero {base : Nat} (hbase : 1 < base) (hsmall : base ≤ 16) (n : Nat)
    (hn : 0 < n) : (Nat.toDigits base n).head? ≠ some '0' := by
  have hdigit : ∀ d < 16, 0 < d → d.digitChar ≠ '0' := by decide
  induction n using Nat.strongRecOn with
  | ind n ih =>
    by_cases hlt : n < base
    · have hne := hdigit n (by omega) hn
      rw [Nat.toDigits_of_lt_base hlt]
      simpa using hne
    · have hle : base ≤ n := Nat.le_of_not_lt hlt
      have hfront := ih (n / base) (Nat.div_lt_self hn hbase) (Nat.div_pos hle (by omega))
      rw [Nat.toDigits_of_base_le hbase hle, List.head?_append]
      cases hdigits : Nat.toDigits base (n / base) with
      | nil => exact absurd hdigits Nat.toDigits_ne_nil
      | cons c cs => rwa [hdigits] at hfront

theorem isDigit_of_mem_toDigits {n : Nat} : ∀ c ∈ Nat.toDigits 10 n, c.isDigit = true :=
  fun _ => Nat.isDigit_of_mem_toDigits (by decide) (by decide)

theorem readNat_toDigits (n : Nat) : readNat (Nat.toDigits 10 n) = some n := by
  have hdigits : (Nat.toDigits 10 n).all Char.isDigit = true :=
    List.all_eq_true.mpr isDigit_of_mem_toDigits
  have hvalue : (Nat.toDigits 10 n).foldl (fun m c => 10 * m + (c.toNat - 48)) 0 = n :=
    Nat.ofDigitChars_eq_foldl.symm.trans Nat.ofDigitChars_ten_toDigits
  unfold readNat
  split
  · rename_i hnil
    exact absurd hnil Nat.toDigits_ne_nil
  · rw [if_pos hdigits, hvalue]

/-- Digits have no sign in front. -/
theorem dropPlus_of_isDigit {cs : List Char} (h : ∀ c ∈ cs, c.isDigit = true) :
    dropPlus cs = cs := by
  unfold dropPlus
  split
  · have hplus : Char.isDigit '+' = true := h _ List.mem_cons_self
    exact absurd hplus (by decide)
  · rfl

theorem readNatUpTo_toDigits {bound n : Nat} (h : n ≤ bound) :
    readNatUpTo bound (Nat.toDigits 10 n) = some n := by
  rw [readNatUpTo, dropPlus_of_isDigit isDigit_of_mem_toDigits, readNat_toDigits]
  dsimp only
  rw [if_pos h]

end Text

/-! ## IPv4 -/

namespace Ipv4

theorem readOctet_toDigits (n : UInt8) {rest : List Char} (hrest : Text.StopsAt Char.isDigit rest) :
    readOctet (Nat.toDigits 10 n.toNat ++ rest) = some (n, rest) := by
  have hn := n.toNat_lt
  obtain ⟨htake, hdrop⟩ := Text.takeWhile_of_stopsAt Text.isDigit_of_mem_toDigits hrest
  have hpos := Nat.length_toDigits_pos (b := 10) (n := n.toNat)
  have hshort : (Nat.toDigits 10 n.toNat).length ≤ 3 :=
    (Nat.length_toDigits_le_iff (by decide) (by decide)).mpr (by omega)
  have hzero : ¬ ((Nat.toDigits 10 n.toNat).head? = some '0' ∧
      1 < (Nat.toDigits 10 n.toNat).length) := by
    rintro ⟨hhead, hlong⟩
    by_cases hn0 : n.toNat = 0
    · rw [hn0] at hlong
      exact absurd hlong (by decide)
    · exact Text.head?_toDigits_ne_zero (by decide) (by decide) _ (Nat.pos_of_ne_zero hn0) hhead
  rw [readOctet, htake, hdrop, if_neg (by omega), if_neg hzero,
    Text.readNatUpTo_toDigits (by omega)]
  dsimp only
  rw [UInt8.ofNat_toNat]

theorem toList_toString (ip : Ipv4) : ip.toString.toList =
    Nat.toDigits 10 ip.a.toNat ++ ('.' :: (Nat.toDigits 10 ip.b.toNat ++
      ('.' :: (Nat.toDigits 10 ip.c.toNat ++ ('.' :: Nat.toDigits 10 ip.d.toNat))))) := by
  have hdot : (ToString.toString ".").toList = ['.'] := rfl
  simp [toString, hdot]

theorem readPrefix_toString (ip : Ipv4) : readPrefix ip.toString.toList = some (ip, []) := by
  have hdot := Text.stopsAt_cons (p := Char.isDigit) (c := '.') rfl
  have hlast := readOctet_toDigits ip.d (Text.stopsAt_nil _)
  rw [List.append_nil] at hlast
  simp only [toList_toString, readPrefix, readDotOctet, readOctet_toDigits _ (hdot _), hlast]

theorem ofChars?_toString (ip : Ipv4) : ofChars? ip.toString.toList = some ip := by
  rw [ofChars?, readPrefix_toString]

/-- Every address at the start of a text has a dot behind it or in it. -/
theorem readPrefix_eq_none {cs : List Char} (h : '.' ∉ cs) : readPrefix cs = none := by
  unfold readPrefix
  split
  · rfl
  · rename_i a rest hread
    obtain ⟨digits, rfl, -⟩ := readOctet_spec hread
    have hdot : readDotOctet rest = none := by
      unfold readDotOctet
      split
      · exact absurd (List.mem_append_right _ List.mem_cons_self) h
      · rfl
    rw [hdot]

/-- No address starts with something other than a digit. -/
theorem readPrefix_of_stopsAt {cs : List Char} (h : Text.StopsAt Char.isDigit cs) :
    readPrefix cs = none := by
  have hread : readOctet cs = none := by
    rw [readOctet, Text.takeWhile_eq_nil h]
    rfl
  rw [readPrefix, hread]

end Ipv4

/-! ## IPv6 -/

namespace Ipv6

/-! ### Groups -/

/-- The digits of a group. -/
def digits (g : UInt16) : List Char :=
  Nat.toDigits 16 g.toNat

/-- Groups with a colon before each. -/
def colonGroups (groups : List UInt16) : List Char :=
  groups.flatMap fun g => ':' :: digits g

theorem mem_toDigits {n : Nat} {c : Char} (h : c ∈ Nat.toDigits 16 n) :
    ∃ d < 16, c = Nat.digitChar d := by
  induction n using Nat.strongRecOn with
  | ind n ih =>
    by_cases hlt : n < 16
    · rw [Nat.toDigits_of_lt_base hlt, List.mem_singleton] at h
      exact ⟨n, hlt, h⟩
    · rw [Nat.toDigits_of_base_le (by decide) (Nat.le_of_not_lt hlt), List.mem_append,
        List.mem_singleton] at h
      obtain h | rfl := h
      · exact ih (n / 16) (by omega) h
      · exact ⟨n % 16, by omega, rfl⟩

theorem hexValue?_digitChar : ∀ d < 16, hexValue? (Nat.digitChar d) = some d := by decide

theorem isHex_of_mem_digits {g : UInt16} {c : Char} (h : c ∈ digits g) :
    (hexValue? c).isSome = true := by
  obtain ⟨d, hd, rfl⟩ := mem_toDigits h
  rw [hexValue?_digitChar d hd]
  rfl

theorem hexValue?_of_isDigit {c : Char} (h : c.isDigit = true) :
    hexValue? c = some (c.toNat - 48) := by
  rw [hexValue?, if_pos]
  simpa [Char.isDigit, Char.le_def, UInt32.le_iff_toNat_le] using h

theorem isDigit_of_hexValue? {c : Char} (h : hexValue? c = none) : c.isDigit = false := by
  cases hdigit : c.isDigit with
  | false => rfl
  | true =>
    rw [hexValue?_of_isDigit hdigit] at h
    cases h

theorem foldl_toDigits (n : Nat) :
    (Nat.toDigits 16 n).foldl (fun n c => 16 * n + (hexValue? c).getD 0) 0 = n := by
  induction n using Nat.strongRecOn with
  | ind n ih =>
    by_cases hlt : n < 16
    · rw [Nat.toDigits_of_lt_base hlt, List.foldl_cons, hexValue?_digitChar n hlt]
      simp
    · rw [Nat.toDigits_of_base_le (by decide) (Nat.le_of_not_lt hlt), List.foldl_append,
        ih (n / 16) (by omega), List.foldl_cons, List.foldl_nil,
        hexValue?_digitChar (n % 16) (by omega), Option.getD_some]
      omega

theorem readGroup_digits (g : UInt16) {rest : List Char}
    (hrest : Text.StopsAt (fun c => (hexValue? c).isSome) rest) :
    readGroup (digits g ++ rest) = some (g, rest) := by
  have hg := g.toNat_lt
  obtain ⟨htake, hdrop⟩ := Text.takeWhile_of_stopsAt (fun _ => isHex_of_mem_digits) hrest
  have hpos : 0 < (digits g).length := Nat.length_toDigits_pos
  have hshort : (digits g).length ≤ 4 :=
    (Nat.length_toDigits_le_iff (by decide) (by decide)).mpr (by omega)
  rw [readGroup, htake, hdrop, if_neg (by omega), digits, foldl_toDigits, UInt16.ofNat_toNat]

theorem toList_joinGroups (g : UInt16) (groups : List UInt16) :
    (joinGroups (g :: groups)).toList = digits g ++ colonGroups groups := by
  induction groups generalizing g with
  | nil => simp [joinGroups, groupText, digits, colonGroups]
  | cons h groups ih =>
    have hrest := ih h
    simp only [joinGroups, String.toList_intercalate, List.map_cons] at hrest ⊢
    rw [List.intercalate_cons_cons, hrest]
    simp [groupText, digits, colonGroups]

section

variable {c : Char} (hhex : hexValue? c = none) (hcolon : c ≠ ':')

include hhex

/-- Groups are written in hexadecimal digits and colons alone. -/
theorem not_mem_digits (g : UInt16) : c ∉ digits g := by
  intro h
  have hsome := isHex_of_mem_digits h
  rw [hhex] at hsome
  cases hsome

include hcolon

theorem not_mem_colonGroups (groups : List UInt16) : c ∉ colonGroups groups := by
  intro h
  obtain ⟨g, _, hmem⟩ := List.mem_flatMap.mp h
  obtain rfl | hmem := List.mem_cons.mp hmem
  · exact hcolon rfl
  · exact not_mem_digits hhex g hmem

theorem not_mem_joinGroups (groups : List UInt16) : c ∉ (joinGroups groups).toList := by
  cases groups with
  | nil => exact List.not_mem_nil
  | cons g groups =>
    rw [toList_joinGroups, List.mem_append, not_or]
    exact ⟨not_mem_digits hhex g, not_mem_colonGroups hhex hcolon groups⟩

end

/-! ### Runs of groups -/

/-- The end of a text, or a double colon. -/
def AtBreak (rest : List Char) : Prop :=
  rest = [] ∨ ∃ tail, rest = ':' :: ':' :: tail

theorem AtBreak.stopsAt {p : Char → Bool} (hp : p ':' = false) {rest : List Char}
    (h : AtBreak rest) : Text.StopsAt p rest := by
  obtain rfl | ⟨tail, rfl⟩ := h
  · exact Text.stopsAt_nil p
  · exact Text.stopsAt_cons hp _

theorem stopsAt_colonGroups {p : Char → Bool} (hp : p ':' = false) (groups : List UInt16)
    {rest : List Char} (hrest : AtBreak rest) : Text.StopsAt p (colonGroups groups ++ rest) := by
  cases groups with
  | nil => exact hrest.stopsAt hp
  | cons g groups => exact Text.stopsAt_cons hp _

/-- No group is read where neither a digit nor a colon and a digit stand. -/
theorem readGroups_of_stopsAt {limit : Nat} {first : Bool} {cs : List Char}
    (h : ∀ body, afterColon first cs = some body →
      Text.StopsAt (fun c => (hexValue? c).isSome) body) :
    readGroups limit first cs = ⟨[], false, cs⟩ := by
  cases limit with
  | zero => rfl
  | succ limit =>
    obtain hnone | ⟨body, ip, rest, hbody, _, hread, _⟩ | ⟨body, g, rest, hbody, hread, _⟩ :=
      readGroups_cases limit first cs
    · exact hnone
    · have hstops : Text.StopsAt Char.isDigit body :=
        fun c hc => isDigit_of_hexValue? (Option.not_isSome_iff_eq_none.mp (by simp [h body hbody c hc]))
      rw [Ipv4.readPrefix_of_stopsAt hstops] at hread
      cases hread
    · rw [readGroup, Text.takeWhile_eq_nil (h body hbody), if_pos (.inl rfl)] at hread
      cases hread

theorem readGroups_atBreak (limit : Nat) (first : Bool) {rest : List Char} (h : AtBreak rest) :
    readGroups limit first rest = ⟨[], false, rest⟩ := by
  refine readGroups_of_stopsAt fun body hbody => ?_
  obtain rfl | ⟨tail, rfl⟩ := h
  · cases first with
    | false => cases hbody
    | true =>
      cases hbody
      exact Text.stopsAt_nil _
  · have hcolon : ∃ more, body = ':' :: more := by
      cases first <;> cases hbody <;> exact ⟨_, rfl⟩
    obtain ⟨more, rfl⟩ := hcolon
    exact Text.stopsAt_cons rfl more

theorem readGroups_group {limit : Nat} {first : Bool} {cs body more : List Char} {g : UInt16}
    (hbody : afterColon first cs = some body) (hplain : Ipv4.readPrefix body = none)
    (hgroup : readGroup body = some (g, more)) :
    readGroups (limit + 1) first cs = ⟨g :: (readGroups limit false more).groups,
      (readGroups limit false more).endsInIpv4, (readGroups limit false more).rest⟩ := by
  simp only [readGroups, hbody, hplain, ite_self, hgroup]

theorem readGroups_ipv4 {limit : Nat} {first : Bool} {cs body rest : List Char} {ip : Ipv4}
    (hlimit : 0 < limit) (hbody : afterColon first cs = some body)
    (hread : Ipv4.readPrefix body = some (ip, rest)) :
    readGroups (limit + 1) first cs =
      ⟨[Port.ofBytes ip.a ip.b, Port.ofBytes ip.c ip.d], true, rest⟩ := by
  simp only [readGroups, hbody, if_pos hlimit, hread]

/-- One group, before those with a colon in front of them. -/
theorem readGroups_digits {limit : Nat} {first : Bool} {cs rest : List Char} {g : UInt16}
    {groups : List UInt16}
    (hbody : afterColon first cs = some (digits g ++ (colonGroups groups ++ rest)))
    (hrest : AtBreak rest) (hdot : '.' ∉ rest)
    (hmore : readGroups limit false (colonGroups groups ++ rest) = ⟨groups, false, rest⟩) :
    readGroups (limit + 1) first cs = ⟨g :: groups, false, rest⟩ := by
  have hplain : Ipv4.readPrefix (digits g ++ (colonGroups groups ++ rest)) = none := by
    apply Ipv4.readPrefix_eq_none
    simp only [List.mem_append, not_or]
    exact ⟨not_mem_digits rfl g, not_mem_colonGroups rfl (by decide) groups, hdot⟩
  have hgroup := readGroup_digits g (stopsAt_colonGroups rfl groups hrest)
  rw [readGroups_group hbody hplain hgroup, hmore]

theorem readGroups_colonGroups {rest : List Char} (hrest : AtBreak rest) (hdot : '.' ∉ rest) :
    ∀ {groups : List UInt16} {limit : Nat}, groups.length ≤ limit →
      readGroups limit false (colonGroups groups ++ rest) = ⟨groups, false, rest⟩ := by
  intro groups
  induction groups with
  | nil =>
    intro limit _
    exact readGroups_atBreak limit false hrest
  | cons g groups ih =>
    intro limit hlimit
    cases limit with
    | zero => cases hlimit
    | succ limit =>
      have hmore := ih (Nat.le_of_succ_le_succ hlimit)
      refine readGroups_digits ?_ hrest hdot hmore
      simp [colonGroups, afterColon]

/-- **Written groups are read**, up to the end of the text or a double colon. -/
theorem readGroups_joinGroups {rest : List Char} (hrest : AtBreak rest) (hdot : '.' ∉ rest)
    {groups : List UInt16} {limit : Nat} (hlimit : groups.length ≤ limit) :
    readGroups limit true ((joinGroups groups).toList ++ rest) = ⟨groups, false, rest⟩ := by
  cases groups with
  | nil => exact readGroups_atBreak limit true hrest
  | cons g groups =>
    cases limit with
    | zero => cases hlimit
    | succ limit =>
      have hmore := readGroups_colonGroups hrest hdot (Nat.le_of_succ_le_succ hlimit)
      refine readGroups_digits ?_ hrest hdot hmore
      rw [toList_joinGroups, List.append_assoc]
      rfl

theorem readGroups_joinGroups_end {groups : List UInt16} {limit : Nat}
    (hlimit : groups.length ≤ limit) :
    readGroups limit true (joinGroups groups).toList = ⟨groups, false, []⟩ := by
  have hread := readGroups_joinGroups (.inl rfl) List.not_mem_nil hlimit
  rwa [List.append_nil] at hread

/-! ### The longest run of zeros -/

theorem zeroRun_spec (groups : List UInt16) :
    ∃ back, groups = List.replicate (zeroRun groups) 0 ++ back := by
  refine ⟨groups.dropWhile (· = 0), ?_⟩
  have hzeros : groups.takeWhile (· = 0) = List.replicate (zeroRun groups) 0 := by
    refine List.eq_replicate_iff.mpr ⟨rfl, fun g hg => ?_⟩
    exact of_decide_eq_true (List.all_eq_true.mp List.all_takeWhile g hg)
  rw [← hzeros, List.takeWhile_append_dropWhile]

/-- The run that is left out is one of zeros, if it is not empty. -/
theorem longestRun_spec : ∀ (groups : List UInt16) (start : Nat), (longestRun start groups).2 ≠ 0 →
    ∃ front back, groups = front ++ List.replicate (longestRun start groups).2 0 ++ back ∧
      (longestRun start groups).1 = start + front.length := by
  intro groups
  induction groups with
  | nil =>
    intro start h
    exact absurd rfl h
  | cons g groups ih =>
    intro start h
    rw [longestRun] at h ⊢
    split
    · obtain ⟨back, hback⟩ := zeroRun_spec (g :: groups)
      exact ⟨[], back, hback, rfl⟩
    · rename_i hlater
      rw [if_neg hlater] at h
      obtain ⟨front, back, hgroups, hstart⟩ := ih (start + 1) h
      refine ⟨g :: front, back, ?_, ?_⟩
      · rw [List.cons_append, List.cons_append, ← hgroups]
      · rw [hstart, List.length_cons]
        omega

/-! ### Whole texts -/

theorem groups_of_mapped? {ip : Ipv6} {v4 : Ipv4} (h : ip.mapped? = some v4) :
    ip.groups = [0, 0, 0, 0, 0, 0xffff, Port.ofBytes v4.a v4.b, Port.ofBytes v4.c v4.d] := by
  unfold mapped? at h
  split at h
  · rename_i high low hgroups
    cases h
    rw [hgroups, Port.ofBytes_toBytes, Port.ofBytes_toBytes]
  · cases h

/-- What the text of an address looks like: an IPv4 tail, all the groups, or a double colon in place
of some zeros. -/
theorem toString_cases (ip : Ipv6) :
    (∃ v4, ip.mapped? = some v4 ∧ ip.toString = "::ffff:" ++ v4.toString) ∨
      ip.toString = joinGroups ip.groups ∨
      ∃ front count back, 0 < count ∧ ip.groups = front ++ List.replicate count 0 ++ back ∧
        ip.toString = joinGroups front ++ "::" ++ joinGroups back := by
  unfold toString
  split
  · rename_i v4 hmapped
    exact .inl ⟨v4, hmapped, rfl⟩
  · dsimp only
    split
    · rename_i hlong
      obtain ⟨front, back, hgroups, hstart⟩ := longestRun_spec ip.groups 0 (by omega)
      generalize longestRun 0 ip.groups = run at hlong hgroups hstart
      have hfront : ip.groups.take run.1 = front := by
        rw [hgroups, hstart]
        simp
      have hback : ip.groups.drop (run.1 + run.2) = back := by
        rw [hgroups, hstart]
        simp
      exact .inr (.inr ⟨front, run.2, back, by omega, hgroups, by rw [hfront, hback]⟩)
    · exact .inr (.inl rfl)

theorem fillZeros_eq {front back groups : List UInt16} {count : Nat}
    (h : groups = front ++ List.replicate count 0 ++ back) (hlength : groups.length = 8) :
    fillZeros front back = groups := by
  have hcount : 8 - front.length - back.length = count := by
    rw [h] at hlength
    simp at hlength
    omega
  rw [fillZeros, hcount, h]

/-- **A double colon is filled with zeros**: what stands around it is read, and the zeros between
are as many as are missing. -/
theorem ofChars?_doubleColon {ip : Ipv6} {front back : List UInt16} {count : Nat} {body : List Char}
    (hgroups : ip.groups = front ++ List.replicate count 0 ++ back) (hcount : 0 < count)
    (hfront : readGroups 8 true ((joinGroups front).toList ++ ':' :: ':' :: body) =
      ⟨front, false, ':' :: ':' :: body⟩)
    (hback : (readGroups (8 - (front.length + 1)) true body).groups = back)
    (hrest : (readGroups (8 - (front.length + 1)) true body).rest = []) :
    ofChars? ((joinGroups front).toList ++ ':' :: ':' :: body) = some ip := by
  have hfill := fillZeros_eq hgroups ip.length_groups
  have hlength := ip.length_groups
  have hshort : ¬ front.length = 8 := by
    rw [hgroups] at hlength
    simp at hlength
    omega
  simp only [ofChars?, hfront, hback, hrest, hfill, hshort, hlength]
  simp

/-- An IPv4 tail is read as the two groups that it stands for. -/
theorem readGroups_mapped (v4 : Ipv4) :
    readGroups 7 true ("ffff:".toList ++ v4.toString.toList) =
      ⟨[0xffff, Port.ofBytes v4.a v4.b, Port.ofBytes v4.c v4.d], true, []⟩ := by
  have hplain : Ipv4.readPrefix ("ffff".toList ++ ':' :: v4.toString.toList) = none :=
    Ipv4.readPrefix_of_stopsAt (Text.stopsAt_cons rfl _)
  have hgroup : readGroup ("ffff".toList ++ ':' :: v4.toString.toList) =
      some (0xffff, ':' :: v4.toString.toList) :=
    readGroup_digits 0xffff (Text.stopsAt_cons rfl _)
  have htail : readGroups (5 + 1) false (':' :: v4.toString.toList) =
      ⟨[Port.ofBytes v4.a v4.b, Port.ofBytes v4.c v4.d], true, []⟩ :=
    readGroups_ipv4 (by decide) rfl v4.readPrefix_toString
  have hbody : afterColon true ("ffff:".toList ++ v4.toString.toList) =
      some ("ffff".toList ++ ':' :: v4.toString.toList) := rfl
  rw [readGroups_group hbody hplain hgroup, htail]

/-- **An IPv6 address is read back from its text.** -/
theorem ofChars?_toString (ip : Ipv6) : ofChars? ip.toString.toList = some ip := by
  obtain ⟨v4, hmapped, htext⟩ | htext | ⟨front, count, back, hcount, hgroups, htext⟩ :=
    ip.toString_cases
  · have hgroups : ip.groups = [] ++ List.replicate 5 0 ++
        [0xffff, Port.ofBytes v4.a v4.b, Port.ofBytes v4.c v4.d] := groups_of_mapped? hmapped
    have hread := readGroups_mapped v4
    have hchars : ip.toString.toList = (joinGroups []).toList ++
        ':' :: ':' :: ("ffff:".toList ++ v4.toString.toList) := by
      rw [htext, String.toList_append]
      rfl
    rw [hchars]
    exact ofChars?_doubleColon hgroups (by decide) (readGroups_atBreak 8 true (.inr ⟨_, rfl⟩))
      (congrArg GroupRun.groups hread) (congrArg GroupRun.rest hread)
  · have hread := readGroups_joinGroups_end (Nat.le_of_eq ip.length_groups)
    simp only [htext, ofChars?, hread, ip.length_groups]
    simp
  · have hchars : ip.toString.toList =
        (joinGroups front).toList ++ ':' :: ':' :: (joinGroups back).toList := by
      rw [htext, String.toList_append, String.toList_append, List.append_assoc]
      rfl
    have hlength := ip.length_groups
    rw [hgroups] at hlength
    simp at hlength
    have hread := readGroups_joinGroups_end
      (show back.length ≤ 8 - (front.length + 1) by omega)
    have hdot : '.' ∉ ':' :: ':' :: (joinGroups back).toList := by
      simpa using not_mem_joinGroups (c := '.') rfl (by decide) back
    rw [hchars]
    exact ofChars?_doubleColon hgroups hcount
      (readGroups_joinGroups (.inr ⟨_, rfl⟩) hdot (by omega))
      (congrArg GroupRun.groups hread) (congrArg GroupRun.rest hread)

/-- The text of an IPv6 address is no IPv4 literal and has no brackets. -/
theorem toString_plain (ip : Ipv6) :
    Ipv4.readPrefix ip.toString.toList = none ∧
      Host.unbracket ip.toString.toList = ip.toString.toList := by
  have hplain : ∀ {cs : List Char}, '.' ∉ cs → '[' ∉ cs →
      Ipv4.readPrefix cs = none ∧ Host.unbracket cs = cs := by
    intro cs hdot hbracket
    refine ⟨Ipv4.readPrefix_eq_none hdot, ?_⟩
    unfold Host.unbracket
    split
    · exact absurd List.mem_cons_self hbracket
    · rfl
  have hdot := not_mem_joinGroups (c := '.') rfl (by decide)
  have hbracket := not_mem_joinGroups (c := '[') rfl (by decide)
  obtain ⟨v4, _, htext⟩ | htext | ⟨front, _, back, _, _, htext⟩ := ip.toString_cases
  · rw [htext, String.toList_append]
    exact ⟨Ipv4.readPrefix_of_stopsAt (Text.stopsAt_cons rfl _), rfl⟩
  · rw [htext]
    exact hplain (hdot _) (hbracket _)
  · rw [htext]
    refine hplain ?_ ?_
    · simp [hdot]
    · simp [hbracket]

end Ipv6

end SniffProxy
