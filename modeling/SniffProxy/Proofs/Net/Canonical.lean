import SniffProxy.Proofs.Net.Address
import SniffProxy.Proofs.Net.Printing

/-!
# Addresses told in one way

The same destination can be told as an IPv4 address, as an IPv6 address that holds it, or as a name
that is a literal of either. A host text is always classified to the first of these that is
possible.

* `Host.canonical`, `Address.canonical` — the one way in which a destination is told.
* `Address.ofHostPort_text` — the host text of an address is classified to it.
-/

namespace SniffProxy

/-! ## Hosts -/

namespace Host

/-- An IPv4 address that travels as an IPv6 address is an IPv4 address. -/
def unmapped : Host → Host
  | ipv6 ip =>
    match ip.mapped? with
    | some v4 => ipv4 v4
    | none => ipv6 ip
  | host => host

/-- The host that a name stands for, if it is a literal: an IPv4 address, or an IPv6 address with or
without brackets. -/
def literal : Host → Host
  | domain name =>
    match Ipv4.ofChars? name.toList, Ipv6.ofChars? (unbracket name.toList) with
    | some ip, _ => ipv4 ip
    | none, some ip => ipv6 ip
    | none, none => domain name
  | host => host

/-- The one way in which a host is told. -/
def canonical (host : Host) : Host :=
  host.literal.unmapped

/-- A literal is told as the host that it stands for. -/
theorem ofLiteral?_eq (cs : List Char) :
    ofLiteral? cs =
      match Ipv4.ofChars? cs with
      | some ip => some (ipv4 ip)
      | none => (Ipv6.ofChars? (unbracket cs)).map fun ip => (ipv6 ip).unmapped := by
  unfold ofLiteral?
  cases Ipv4.ofChars? cs with
  | some ip => rfl
  | none =>
    cases Ipv6.ofChars? (unbracket cs) with
    | none => rfl
    | some ip =>
      rw [Option.map_some, unmapped]
      dsimp only
      cases ip.mapped? <;> rfl

/-- **The text of a host is read as that host**, told in the one way: as a literal, or else as the
name that it is. -/
theorem ofLiteral?_text (host : Host) :
    ofLiteral? host.text.toList = some host.canonical ∨
      ofLiteral? host.text.toList = none ∧ host.canonical = host ∧ host = .domain host.text := by
  rw [ofLiteral?_eq]
  cases host with
  | ipv4 ip =>
    left
    rw [text, Ipv4.ofChars?_toString]
    rfl
  | ipv6 ip =>
    left
    obtain ⟨hplain, hbrackets⟩ := ip.toString_plain
    rw [text, Ipv4.ofChars?, hplain, hbrackets, Ipv6.ofChars?_toString]
    rfl
  | domain name =>
    rw [show (domain name).text = name from rfl, canonical, literal]
    cases Ipv4.ofChars? name.toList with
    | some ip => exact .inl rfl
    | none =>
      cases Ipv6.ofChars? (unbracket name.toList) with
      | some ip => exact .inl rfl
      | none => exact .inr ⟨rfl, rfl, rfl⟩

end Host

namespace Address

/-- The one way in which an address is told. -/
def canonical (address : Address) : Address :=
  ⟨address.host.canonical, address.port⟩

/-- The host text of an address that can be encoded fits behind a length byte. -/
theorem Encodable.text_short {address : Address} (h : address.Encodable) :
    (utf8 address.host.text).length ≤ maxDomainLength := by
  obtain hliteral | ⟨_, _, hname⟩ := address.host.ofLiteral?_text
  · exact Host.utf8_length_of_literal hliteral
  · exact h _ hname

/-- **An address is read back from its host text and its port**, told in the one way. -/
theorem ofHostPort_text {address : Address} (h : address.Encodable) :
    ofHostPort address.host.text address.port = .ok address.canonical := by
  unfold ofHostPort
  obtain hliteral | ⟨hliteral, hcanonical, hname⟩ := address.host.ofLiteral?_text
  · rw [hliteral]
    rfl
  · rw [hliteral]
    dsimp only
    rw [if_neg (Nat.not_lt.mpr h.text_short), canonical, hcanonical, ← hname]

end Address

end SniffProxy
