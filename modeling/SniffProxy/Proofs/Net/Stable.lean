import SniffProxy.Proofs.Net.Canonical
import SniffProxy.Proofs.Net.HostPort

/-!
# Addresses and their texts

A classified address is already told in the one way, so its texts lead back to it: the host text is
classified to the same address, and the whole text is taken apart into that host text and the port.

* `Host.canonical_of_ofLiteral?` — a classified literal is not told in another way.
* `Address.canonical_of_ofHostPort` — nor is a classified address.
* `Ipv4.not_mem_toString`, `Ipv6.not_mem_toString` — the marks that no literal has in its text.
* `Address.split_toString` — a whole text is taken apart into host text and port.
* `Address.ofHostPort_stable` — both for every classified address.
-/

namespace SniffProxy

/-! ## Texts of literals -/

namespace Ipv4

/-- An IPv4 address is written in digits and dots. -/
theorem not_mem_toString {c : Char} (hdigit : c.isDigit = false) (hdot : c ≠ '.') (ip : Ipv4) :
    c ∉ ip.toString.toList := by
  have hoctet : ∀ n, c ∉ Nat.toDigits 10 n := by
    intro n hmem
    rw [Text.isDigit_of_mem_toDigits c hmem] at hdigit
    cases hdigit
  simp [toList_toString, hoctet, hdot]

end Ipv4

namespace Ipv6

/-- An IPv6 address is written in hexadecimal digits, colons and dots. -/
theorem not_mem_toString {c : Char} (hhex : hexValue? c = none) (hcolon : c ≠ ':') (hdot : c ≠ '.')
    (ip : Ipv6) : c ∉ ip.toString.toList := by
  have hgroups := not_mem_joinGroups hhex hcolon
  obtain ⟨v4, -, htext⟩ | htext | ⟨front, _, back, _, _, htext⟩ := ip.toString_cases
  · have hhead : "::ffff:".toList = [':', ':', 'f', 'f', 'f', 'f', ':'] := rfl
    have hf : c ≠ 'f' := by
      rintro rfl
      exact absurd hhex (by decide)
    have htail := v4.not_mem_toString (isDigit_of_hexValue? hhex) hdot
    simp [htext, hhead, hcolon, hf, htail]
  · rw [htext]
    exact hgroups ip.groups
  · have hdouble : "::".toList = [':', ':'] := rfl
    simp [htext, hgroups, hdouble, hcolon]

end Ipv6

/-! ## Hosts and addresses -/

namespace Host

theorem canonical_unmapped_ipv6 (ip : Ipv6) :
    (ipv6 ip).unmapped.canonical = (ipv6 ip).unmapped := by
  unfold unmapped
  dsimp only
  cases hmapped : ip.mapped? with
  | some v4 => rfl
  | none => simp only [canonical, literal, unmapped, hmapped]

/-- **A literal is classified to a host that is told in the one way.** -/
theorem canonical_of_ofLiteral? {cs : List Char} {host : Host} (h : ofLiteral? cs = some host) :
    host.canonical = host := by
  rw [ofLiteral?_eq] at h
  cases hip : Ipv4.ofChars? cs with
  | some ip =>
    rw [hip] at h
    cases h
    rfl
  | none =>
    rw [hip] at h
    obtain ⟨ip, -, rfl⟩ := Option.map_eq_some_iff.mp h
    exact canonical_unmapped_ipv6 ip

theorem canonical_of_not_literal {name : String} (h : ofLiteral? name.toList = none) :
    (domain name).canonical = domain name := by
  obtain hliteral | ⟨-, hcanonical, -⟩ := (domain name).ofLiteral?_text
  · rw [text, h] at hliteral
    cases hliteral
  · exact hcanonical

end Host

namespace Address

variable {host : String} {port default : Port} {address : Address}

theorem canonical_of_ofHostPort (h : ofHostPort host port = .ok address) :
    address.canonical = address := by
  unfold ofHostPort at h
  split at h
  · rename_i literal hliteral
    cases h
    rw [canonical, Host.canonical_of_ofLiteral? hliteral]
  · rename_i hliteral
    split at h
    · cases h
    · cases h
      rw [canonical, Host.canonical_of_not_literal hliteral]

/-- **An address text is taken apart** into host text and port. Only a name can stand in the way:
an IPv6 address is in brackets, and an IPv4 address needs none. -/
theorem split_toString
    (hname : ∀ name, address.host = .domain name → HostPort.Plain name.toList) :
    HostPort.split address.toString default = some address.target := by
  unfold toString target
  obtain ⟨host, port⟩ := address
  cases host with
  | ipv4 ip =>
    have hopen : '[' ∉ ip.toString.toList := ip.not_mem_toString rfl (by decide)
    have hplain : HostPort.Plain ip.toString.toList :=
      ⟨ip.not_mem_toString rfl (by decide), fun hhead => hopen (List.mem_of_mem_head? hhead)⟩
    exact HostPort.split_join hplain
  | ipv6 ip => exact HostPort.split_join_brackets (ip.not_mem_toString rfl (by decide) (by decide))
  | domain name => exact HostPort.split_join (hname name rfl)

/-- **The texts of a classified address lead back to it.** Its host text and its port are classified
to the same address, and its whole text is taken apart into just these two, whatever the default
port, unless its name is one that would need brackets. -/
theorem ofHostPort_stable (h : ofHostPort host port = .ok address) :
    ofHostPort address.host.text address.port = .ok address ∧
      ((∀ name, address.host = .domain name →
          ':' ∉ name.toList ∧ name.toList.head? ≠ some '[') →
        ∀ default, HostPort.split address.toString default =
          some ⟨address.host.text, address.port⟩) := by
  refine ⟨?_, fun hname default => split_toString hname⟩
  rw [ofHostPort_text (encodable_of_ofHostPort h), canonical_of_ofHostPort h]

/-- A literal in capitals and brackets, and a name. -/
theorem ofHostPort_stable_literal_and_name :
    let literal : Address := ⟨.ipv6 ⟨[0x2001, 0xdb8, 0, 0, 0, 0, 0, 1], rfl⟩, 443⟩
    let name : Address := ⟨.domain "example.com", 80⟩
    (ofHostPort "[2001:DB8::1]" 443 = .ok literal ∧
      ofHostPort literal.host.text 443 = .ok literal ∧
      HostPort.split literal.toString 80 = some ⟨literal.host.text, 443⟩) ∧
    (ofHostPort "example.com" 80 = .ok name ∧
      ofHostPort name.host.text 80 = .ok name ∧
      HostPort.split name.toString 443 = some ⟨"example.com", 80⟩) := by
  intro literal name
  have hliteral : ofHostPort "[2001:DB8::1]" 443 = .ok literal := rfl
  have hname : ofHostPort "example.com" 80 = .ok name := rfl
  obtain ⟨hliteralHost, hliteralSplit⟩ := ofHostPort_stable hliteral
  obtain ⟨hnameHost, hnameSplit⟩ := ofHostPort_stable hname
  have hplain : ∀ text, name.host = .domain text →
      ':' ∉ text.toList ∧ text.toList.head? ≠ some '[' := by
    rintro text ⟨rfl⟩
    exact ⟨by decide, by decide⟩
  exact ⟨⟨hliteral, hliteralHost, hliteralSplit nofun 80⟩, hname, hnameHost, hnameSplit hplain 443⟩

end Address

end SniffProxy
