import SniffProxy.Net.Address

/-!
# Literals are short

A text of more than 48 characters is no literal of an IP address, with or without brackets. A
character takes at most four bytes, so that a literal always fits behind a one-byte length.

Every reader of a literal leaves a rest. What it takes off the front is known from its result, and
so is how much that can be.

* `Ipv4.readPrefix_spec`, `Ipv6.readGroups_cases`, `Ipv6.ofChars?_cases` — what the readers take.
* `Ipv4.ofChars?_length`, `Ipv6.ofChars?_length` — the longest literals.
* `Host.utf8_length_of_literal` — what that means for the bytes of a host text.
-/

namespace SniffProxy

/-! ## Bytes and characters -/

/-- The bytes of a text are those of its characters. -/
theorem utf8_ofList (cs : List Char) :
    utf8 (String.ofList cs) = cs.flatMap String.utf8EncodeChar := by
  simp [utf8, List.utf8Encode]

theorem length_utf8_le (text : String) : (utf8 text).length ≤ 4 * text.toList.length := by
  have hchars : ∀ cs : List Char, (cs.flatMap String.utf8EncodeChar).length ≤ 4 * cs.length := by
    intro cs
    induction cs with
    | nil => exact Nat.le_refl 0
    | cons c cs ih =>
      have hc := c.utf8Size_le_four
      rw [List.flatMap_cons, List.length_append, String.length_utf8EncodeChar, List.length_cons]
      omega
  have h := hchars text.toList
  rwa [← utf8_ofList, String.ofList_toList] at h

/-! ## IPv4 -/

namespace Ipv4

/-- An octet is one digit, two or three. -/
theorem readOctet_spec {cs rest : List Char} {n : UInt8} (h : readOctet cs = some (n, rest)) :
    ∃ digits, cs = digits ++ rest ∧ (∀ c ∈ digits, c.isDigit = true) ∧ digits ≠ [] ∧
      digits.length ≤ 3 := by
  unfold readOctet at h
  dsimp only at h
  split at h
  · cases h
  · rename_i hlength
    split at h
    · cases h
    · split at h
      · cases h
        refine ⟨cs.takeWhile Char.isDigit, List.takeWhile_append_dropWhile.symm,
          List.all_eq_true.mp List.all_takeWhile, fun hnil => ?_, by omega⟩
        simp [hnil] at hlength
      · cases h

theorem readDotOctet_spec {cs rest : List Char} {n : UInt8}
    (h : readDotOctet cs = some (n, rest)) :
    ∃ more, cs = '.' :: more ∧ readOctet more = some (n, rest) := by
  unfold readDotOctet at h
  split at h
  · exact ⟨_, rfl, h⟩
  · cases h

/-- An address is four octets with dots between them. -/
theorem readPrefix_spec {cs rest : List Char} {ip : Ipv4} (h : readPrefix cs = some (ip, rest)) :
    ∃ r₁ r₂ r₃, readOctet cs = some (ip.a, r₁) ∧ readDotOctet r₁ = some (ip.b, r₂) ∧
      readDotOctet r₂ = some (ip.c, r₃) ∧ readDotOctet r₃ = some (ip.d, rest) := by
  unfold readPrefix at h
  split at h
  · cases h
  · rename_i a r₁ ha
    split at h
    · cases h
    · rename_i b r₂ hb
      split at h
      · cases h
      · rename_i c r₃ hc
        split at h
        · cases h
        · rename_i d r₄ hd
          cases h
          exact ⟨r₁, r₂, r₃, ha, hb, hc, hd⟩

theorem readPrefix_of_ofChars? {cs : List Char} {ip : Ipv4} (h : ofChars? cs = some ip) :
    readPrefix cs = some (ip, []) := by
  unfold ofChars? at h
  split at h
  · rename_i hread
    cases h
    exact hread
  · cases h

theorem readOctet_length {cs rest : List Char} {n : UInt8} (h : readOctet cs = some (n, rest)) :
    cs.length ≤ rest.length + 3 := by
  obtain ⟨digits, rfl, -, -, hlength⟩ := readOctet_spec h
  rw [List.length_append]
  omega

theorem readDotOctet_length {cs rest : List Char} {n : UInt8}
    (h : readDotOctet cs = some (n, rest)) : cs.length ≤ rest.length + 4 := by
  obtain ⟨more, rfl, hoctet⟩ := readDotOctet_spec h
  have hlength := readOctet_length hoctet
  rw [List.length_cons]
  omega

/-- Four octets and three dots. -/
theorem readPrefix_length {cs rest : List Char} {ip : Ipv4} (h : readPrefix cs = some (ip, rest)) :
    cs.length ≤ rest.length + 15 := by
  obtain ⟨r₁, r₂, r₃, ha, hb, hc, hd⟩ := readPrefix_spec h
  have h₁ := readOctet_length ha
  have h₂ := readDotOctet_length hb
  have h₃ := readDotOctet_length hc
  have h₄ := readDotOctet_length hd
  omega

theorem ofChars?_length {cs : List Char} {ip : Ipv4} (h : ofChars? cs = some ip) :
    cs.length ≤ 15 :=
  readPrefix_length (readPrefix_of_ofChars? h)

end Ipv4

/-! ## IPv6 -/

namespace Ipv6

/-- A group is at most four hexadecimal digits. -/
theorem readGroup_spec {cs rest : List Char} {g : UInt16} (h : readGroup cs = some (g, rest)) :
    ∃ digits, cs = digits ++ rest ∧ (∀ c ∈ digits, (hexValue? c).isSome = true) ∧
      digits.length ≤ 4 := by
  unfold readGroup at h
  dsimp only at h
  split at h
  · cases h
  · cases h
    exact ⟨_, List.takeWhile_append_dropWhile.symm, List.all_eq_true.mp List.all_takeWhile,
      by omega⟩

theorem afterColon_spec {first : Bool} {cs body : List Char} (h : afterColon first cs = some body) :
    cs = body ∨ cs = ':' :: body := by
  unfold afterColon at h
  split at h
  · cases h
    exact .inl rfl
  · split at h
    · cases h
      exact .inr rfl
    · cases h

/-- What one more group can be: none, an IPv4 tail, or a group with others behind it. -/
theorem readGroups_cases (limit : Nat) (first : Bool) (cs : List Char) :
    readGroups (limit + 1) first cs = ⟨[], false, cs⟩ ∨
      (∃ body ip rest, afterColon first cs = some body ∧ 0 < limit ∧
        Ipv4.readPrefix body = some (ip, rest) ∧ readGroups (limit + 1) first cs =
          ⟨[Port.ofBytes ip.a ip.b, Port.ofBytes ip.c ip.d], true, rest⟩) ∨
      ∃ body g rest, afterColon first cs = some body ∧ readGroup body = some (g, rest) ∧
        readGroups (limit + 1) first cs = ⟨g :: (readGroups limit false rest).groups,
          (readGroups limit false rest).endsInIpv4, (readGroups limit false rest).rest⟩ := by
  rcases hbody : afterColon first cs with _ | body
  · exact .inl (by simp only [readGroups, hbody])
  · rcases htail : (if 0 < limit then Ipv4.readPrefix body else none) with _ | ⟨ip, rest⟩
    · rcases hgroup : readGroup body with _ | ⟨g, rest⟩
      · exact .inl (by simp only [readGroups, hbody, htail, hgroup])
      · exact .inr (.inr ⟨body, g, rest, rfl, hgroup, by
          simp only [readGroups, hbody, htail, hgroup]⟩)
    · have hresult : readGroups (limit + 1) first cs =
          ⟨[Port.ofBytes ip.a ip.b, Port.ofBytes ip.c ip.d], true, rest⟩ := by
        simp only [readGroups, hbody, htail]
      split at htail
      · rename_i hlimit
        exact .inr (.inl ⟨body, ip, rest, rfl, hlimit, htail, hresult⟩)
      · cases htail

/-- A literal is eight groups in a row, or has two colons between the groups in front and those
behind. -/
theorem ofChars?_cases {cs : List Char} {ip : Ipv6} (h : ofChars? cs = some ip) :
    ((readGroups 8 true cs).groups.length = 8 ∧ (readGroups 8 true cs).rest = []) ∨
      (readGroups 8 true cs).groups.length ≠ 8 ∧ (readGroups 8 true cs).endsInIpv4 = false ∧ ∃ body,
        (readGroups 8 true cs).rest = ':' :: ':' :: body ∧
        (readGroups (8 - ((readGroups 8 true cs).groups.length + 1)) true body).rest = [] := by
  unfold ofChars? at h
  dsimp only at h
  split at h
  · rename_i height
    split at h
    · rename_i hrest
      exact .inl ⟨height, hrest⟩
    · cases h
  · rename_i hfewer
    split at h
    · cases h
    · rename_i hplain
      split at h
      · rename_i body hrest
        split at h
        · split at h
          · rename_i hend
            exact .inr ⟨hfewer, Bool.eq_false_iff.mpr hplain, body, hrest, hend⟩
          · cases h
        · cases h
      · cases h

theorem readGroup_length {cs rest : List Char} {g : UInt16} (h : readGroup cs = some (g, rest)) :
    cs.length ≤ rest.length + 4 := by
  obtain ⟨digits, rfl, -, hlength⟩ := readGroup_spec h
  rw [List.length_append]
  omega

theorem afterColon_length {first : Bool} {cs body : List Char}
    (h : afterColon first cs = some body) : cs.length ≤ body.length + 1 := by
  obtain rfl | rfl := afterColon_spec h
  · omega
  · exact Nat.le_refl _

/-- A group takes at most five characters with its colon, and an IPv4 tail at most sixteen, which is
six more than the two groups it stands for. -/
theorem readGroups_length :
    ∀ {limit : Nat} {first : Bool} {cs : List Char},
      cs.length ≤ (readGroups limit first cs).rest.length +
        5 * (readGroups limit first cs).groups.length +
        if (readGroups limit first cs).endsInIpv4 then 6 else 0 := by
  intro limit
  induction limit with
  | zero =>
    intro first cs
    simp [readGroups]
  | succ limit ih =>
    intro first cs
    rcases readGroups_cases limit first cs with
      h | ⟨body, ip, rest, hbody, _, hip, h⟩ | ⟨body, g, rest, hbody, hg, h⟩ <;> rw [h]
    · simp
    · have hcolon := afterColon_length hbody
      have htail := Ipv4.readPrefix_length hip
      simp only [List.length_cons, List.length_nil, if_pos]
      omega
    · have hcolon := afterColon_length hbody
      have hgroup := readGroup_length hg
      have hmore := @ih false rest
      simp only [List.length_cons]
      omega

theorem readGroups_groups_length :
    ∀ {limit : Nat} {first : Bool} {cs : List Char},
      (readGroups limit first cs).groups.length ≤ limit := by
  intro limit
  induction limit with
  | zero =>
    intro first cs
    exact Nat.le_refl 0
  | succ limit ih =>
    intro first cs
    rcases readGroups_cases limit first cs with
      h | ⟨body, ip, rest, _, hlimit, _, h⟩ | ⟨body, g, rest, _, _, h⟩ <;> rw [h]
    · exact Nat.zero_le _
    · simp only [List.length_cons, List.length_nil]
      omega
    · exact Nat.succ_le_succ ih

theorem ofChars?_length {cs : List Char} {ip : Ipv6} (h : ofChars? cs = some ip) :
    cs.length ≤ 46 := by
  have hfront := @readGroups_length 8 true cs
  obtain ⟨height, hrest⟩ | ⟨hfewer, hplain, body, hrest, hend⟩ := ofChars?_cases h
  · rw [hrest, List.length_nil, height] at hfront
    split at hfront <;> omega
  · -- the two colons stand for at least one group
    have hback := @readGroups_length (8 - ((readGroups 8 true cs).groups.length + 1)) true body
    have hlimit :=
      @readGroups_groups_length (8 - ((readGroups 8 true cs).groups.length + 1)) true body
    have hgroups := @readGroups_groups_length 8 true cs
    rw [hplain, hrest, List.length_cons, List.length_cons] at hfront
    rw [hend, List.length_nil] at hback
    simp only [Bool.false_eq_true, if_false] at hfront
    split at hback <;> omega

end Ipv6

/-! ## Hosts -/

namespace Host

theorem unbracket_cases (cs : List Char) :
    unbracket cs = cs ∨ cs = '[' :: unbracket cs ++ [']'] := by
  unfold unbracket
  split
  · split
    · rename_i rest hlast
      obtain ⟨inside, rfl⟩ := List.getLast?_eq_some_iff.mp hlast
      exact .inr (by rw [List.dropLast_concat]; rfl)
    · exact .inl rfl
  · exact .inl rfl

theorem ofLiteral?_cases {cs : List Char} {host : Host} (h : ofLiteral? cs = some host) :
    (∃ ip, Ipv4.ofChars? cs = some ip) ∨ ∃ ip, Ipv6.ofChars? (unbracket cs) = some ip := by
  unfold ofLiteral? at h
  split at h
  · rename_i ip hip
    exact .inl ⟨ip, hip⟩
  · split at h
    · rename_i ip hip
      exact .inr ⟨ip, hip⟩
    · cases h

theorem unbracket_length (cs : List Char) : cs.length ≤ (unbracket cs).length + 2 := by
  obtain h | h := unbracket_cases cs
  · rw [h]
    omega
  · have hlength := congrArg List.length h
    simp at hlength
    omega

theorem ofLiteral?_length {cs : List Char} {host : Host} (h : ofLiteral? cs = some host) :
    cs.length ≤ 48 := by
  obtain ⟨ip, hip⟩ | ⟨ip, hip⟩ := ofLiteral?_cases h
  · have h₄ := Ipv4.ofChars?_length hip
    omega
  · have h₆ := Ipv6.ofChars?_length hip
    have hbrackets := unbracket_length cs
    omega

/-- **A literal fits behind a one-byte length**, brackets and all. -/
theorem utf8_length_of_literal {text : String} {host : Host}
    (h : ofLiteral? text.toList = some host) : (utf8 text).length ≤ maxDomainLength := by
  have hchars := ofLiteral?_length h
  have hbytes := length_utf8_le text
  unfold maxDomainLength
  omega

end Host

end SniffProxy
