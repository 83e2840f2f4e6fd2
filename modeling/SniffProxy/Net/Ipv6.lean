import SniffProxy.Net.Ipv4

/-!
# IPv6 addresses

The eight groups of an IPv6 address, their text and its reader. The text follows RFC 5952:
lowercase, the first longest run of two or more zero groups written `::`, and a mapped IPv4 address
in dotted form. The reader takes groups of one to four hexadecimal digits of either case, one `::`,
and an IPv4 tail in place of the last two groups.
-/

namespace SniffProxy

/-- An IPv6 address: eight groups of sixteen bits. -/
structure Ipv6 where
  groups : List UInt16
  length_groups : groups.length = 8
  deriving DecidableEq, Repr

namespace Ipv6

/-- The sixteen bytes in the order of the wire. -/
def toBytes (ip : Ipv6) : Bytes :=
  ip.groups.flatMap Port.toBytes

theorem length_flatMap_toBytes (groups : List UInt16) :
    (groups.flatMap Port.toBytes).length = 2 * groups.length := by
  induction groups with
  | nil => rfl
  | cons g rest ih => simp [List.flatMap_cons, ih]; omega

@[simp] theorem length_toBytes (ip : Ipv6) : ip.toBytes.length = 16 := by
  rw [toBytes, length_flatMap_toBytes, ip.length_groups]

/-- The groups made from pairs of bytes. -/
def pairBytes : Bytes → List UInt16
  | high :: low :: rest => Port.ofBytes high low :: pairBytes rest
  | _ => []

/-- The address with these sixteen bytes. -/
def ofBytes? (bytes : Bytes) : Option Ipv6 :=
  if h : (pairBytes bytes).length = 8 then some ⟨pairBytes bytes, h⟩ else none

/-! ## Mapped IPv4 addresses -/

/-- The IPv4 address inside `::ffff:a.b.c.d`. -/
def mapped? (ip : Ipv6) : Option Ipv4 :=
  match ip.groups with
  | [0, 0, 0, 0, 0, 0xffff, high, low] =>
    some ⟨UInt8.ofNat (high.toNat / 256), UInt8.ofNat (high.toNat % 256),
      UInt8.ofNat (low.toNat / 256), UInt8.ofNat (low.toNat % 256)⟩
  | _ => none

/-! ## Writing -/

/-- Lowercase hexadecimal without leading zeros. -/
def groupText (g : UInt16) : String :=
  String.ofList (Nat.toDigits 16 g.toNat)

/-- Groups joined with colons. -/
def joinGroups (groups : List UInt16) : String :=
  String.intercalate ":" (groups.map groupText)

/-- The number of zero groups at the start. -/
def zeroRun (groups : List UInt16) : Nat :=
  (groups.takeWhile (· = 0)).length

/-- Start and length of the first longest run of zero groups, counted from `start`. -/
def longestRun : (start : Nat) → List UInt16 → Nat × Nat
  | _, [] => (0, 0)
  | start, g :: rest =>
    let here := zeroRun (g :: rest)
    let later := longestRun (start + 1) rest
    if later.2 ≤ here then (start, here) else later

/-- The text of an address. -/
def toString (ip : Ipv6) : String :=
  match ip.mapped? with
  | some v4 => "::ffff:" ++ v4.toString
  | none =>
    let (start, length) := longestRun 0 ip.groups
    if 1 < length then
      joinGroups (ip.groups.take start) ++ "::" ++ joinGroups (ip.groups.drop (start + length))
    else joinGroups ip.groups

/-! ## Reading -/

/-- Reads one to four hexadecimal digits at the start of a text. -/
def readGroup (cs : List Char) : Option (UInt16 × List Char) :=
  let digits := cs.takeWhile fun c => (hexValue? c).isSome
  let rest := cs.dropWhile fun c => (hexValue? c).isSome
  if digits.length = 0 ∨ 4 < digits.length then none
  else some (UInt16.ofNat (digits.foldl (fun n c => 16 * n + (hexValue? c).getD 0) 0), rest)

/-- The text after the colon that has to stand before every group but the first. -/
def afterColon (first : Bool) (cs : List Char) : Option (List Char) :=
  if first then some cs
  else
    match cs with
    | ':' :: rest => some rest
    | _ => none

/-- What `readGroups` found: groups, whether an IPv4 tail ended them, and the rest of the text. -/
structure GroupRun where
  groups : List UInt16
  endsInIpv4 : Bool
  rest : List Char

/-- Reads at most `limit` groups separated by colons. Where two groups still fit, an IPv4 address
stands for both and ends the run. -/
def readGroups : (limit : Nat) → (first : Bool) → List Char → GroupRun
  | 0, _, cs => ⟨[], false, cs⟩
  | limit + 1, first, cs =>
    match afterColon first cs with
    | none => ⟨[], false, cs⟩
    | some body =>
      match (if 0 < limit then Ipv4.readPrefix body else none) with
      | some (ip, rest) => ⟨[Port.ofBytes ip.a ip.b, Port.ofBytes ip.c ip.d], true, rest⟩
      | none =>
        match readGroup body with
        | none => ⟨[], false, cs⟩
        | some (g, rest) =>
          let more := readGroups limit false rest
          ⟨g :: more.groups, more.endsInIpv4, more.rest⟩

/-- The groups before and after a `::` with the zeros between them. -/
def fillZeros (front back : List UInt16) : List UInt16 :=
  front ++ List.replicate (8 - front.length - back.length) 0 ++ back

/-- Reads a text that is an address and nothing else. -/
def ofChars? (cs : List Char) : Option Ipv6 :=
  let front := readGroups 8 true cs
  if h : front.groups.length = 8 then
    if front.rest = [] then some ⟨front.groups, h⟩ else none
  else if front.endsInIpv4 then none
  else
    match front.rest with
    | ':' :: ':' :: body =>
      let back := readGroups (8 - (front.groups.length + 1)) true body
      let groups := fillZeros front.groups back.groups
      if h : groups.length = 8 then
        if back.rest = [] then some ⟨groups, h⟩ else none
      else none
    | _ => none

/-- The address with this text. -/
def ofString? (text : String) : Option Ipv6 :=
  ofChars? text.toList

end Ipv6

end SniffProxy
