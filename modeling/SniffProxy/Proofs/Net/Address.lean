import SniffProxy.Proofs.Net.Literal

/-!
# Addresses and their wire forms

Every host text of at most 255 bytes is an address, and every longer one is refused. The bodies of
the wire form decode to what they encode, and what they decode to encodes to them.

* `Address.ofHostPort_short`, `Address.ofHostPort_long` — what becomes of a host text.
* `Address.Encodable` — addresses whose name fits behind its length byte.
* `Address.ofIpv4Body_toBytes`, `Address.ofIpv6Body_toBytes`, `Address.ofDomainBody_utf8`.
* `Address.appendTo_eq` — a wire form is only appended.
* `Address.IsWire` — a type byte and a body make up the wire form of an address that can be encoded;
  `Address.isWire_ofIpv4Body`, `Address.isWire_ofIpv6Body`, `Address.isWire_ofDomainBody`.
-/

namespace SniffProxy

/-! ## Sixteen bytes -/

namespace Ipv6

theorem pairBytes_toBytes (groups : List UInt16) :
    pairBytes (groups.flatMap Port.toBytes) = groups := by
  induction groups with
  | nil => rfl
  | cons g groups ih =>
    simp only [List.flatMap_cons, Port.toBytes, List.cons_append, List.nil_append, pairBytes,
      Port.ofBytes_toBytes] at ih ⊢
    rw [ih]

theorem ofBytes?_toBytes (ip : Ipv6) : ofBytes? ip.toBytes = some ip := by
  obtain ⟨groups, hlength⟩ := ip
  simp only [ofBytes?, toBytes, pairBytes_toBytes, hlength, dif_pos]

theorem toBytes_pairBytes :
    ∀ {bytes : Bytes}, bytes.length = 2 * (pairBytes bytes).length →
      (pairBytes bytes).flatMap Port.toBytes = bytes
  | [], _ => rfl
  | [_], h => by simp [pairBytes] at h
  | high :: low :: rest, h => by
    have hrest : rest.length = 2 * (pairBytes rest).length := by
      simp only [pairBytes, List.length_cons] at h
      omega
    rw [pairBytes, List.flatMap_cons, Port.toBytes_ofBytes, toBytes_pairBytes hrest]
    rfl

theorem toBytes_of_ofBytes? {bytes : Bytes} {ip : Ipv6} (hlength : bytes.length = 16)
    (h : ofBytes? bytes = some ip) : ip.toBytes = bytes := by
  unfold ofBytes? at h
  split at h
  · rename_i height
    cases h
    exact toBytes_pairBytes (by rw [hlength, height])
  · cases h

end Ipv6

/-! ## Host texts -/

/-- No literal is a domain. -/
theorem Host.ofLiteral?_ne_domain (cs : List Char) (name : String) :
    ofLiteral? cs ≠ some (.domain name) := by
  intro h
  unfold ofLiteral? at h
  split at h
  · cases h
  · split at h
    · split at h <;> cases h
    · cases h

namespace Address

/-- The name of a domain fits behind its length byte. -/
def Encodable (address : Address) : Prop :=
  ∀ name, address.host = .domain name → (utf8 name).length ≤ maxDomainLength

/-- The length byte of a name that fits behind it. -/
theorem toNat_length {name : String} (h : (utf8 name).length ≤ maxDomainLength) :
    (UInt8.ofNat (utf8 name).length).toNat = (utf8 name).length := by
  rw [UInt8.toNat_ofNat']
  unfold maxDomainLength at h
  omega

/-- **A short host text is an address**, and one that can be encoded. -/
theorem ofHostPort_short {host : String} (h : (utf8 host).length ≤ maxDomainLength) (port : Port) :
    ∃ address, ofHostPort host port = .ok address ∧ address.Encodable := by
  unfold ofHostPort
  split
  · rename_i literal hliteral
    refine ⟨⟨literal, port⟩, rfl, ?_⟩
    rintro name rfl
    exact absurd hliteral (Host.ofLiteral?_ne_domain host.toList name)
  · rw [if_neg (Nat.not_lt.mpr h)]
    refine ⟨⟨.domain host, port⟩, rfl, ?_⟩
    intro name hname
    cases hname
    exact h

/-- **A long host text is refused**, with its length and not truncated: it is no literal. -/
theorem ofHostPort_long {host : String} (h : maxDomainLength < (utf8 host).length) (port : Port) :
    ofHostPort host port = .error (.domainTooLong (utf8 host).length) := by
  unfold ofHostPort
  split
  · rename_i literal hliteral
    have hshort := Host.utf8_length_of_literal hliteral
    omega
  · rw [if_pos h]

/-- Whatever host text an address was made from, it can be encoded. -/
theorem encodable_of_ofHostPort {host : String} {port : Port} {address : Address}
    (h : ofHostPort host port = .ok address) : address.Encodable := by
  by_cases hlength : (utf8 host).length ≤ maxDomainLength
  · obtain ⟨_, hsame, hencodable⟩ := ofHostPort_short hlength port
    cases h.symm.trans hsame
    exact hencodable
  · rw [ofHostPort_long (Nat.lt_of_not_le hlength)] at h
    cases h

/-! ## Bodies -/

theorem ofIpv4Body_toBytes (ip : Ipv4) (port : Port) :
    ofIpv4Body (ip.toBytes ++ Port.toBytes port) = some ⟨.ipv4 ip, port⟩ := by
  simp only [Ipv4.toBytes, Port.toBytes, List.cons_append, List.nil_append, ofIpv4Body,
    Port.ofBytes_toBytes]

theorem ofIpv6Body_toBytes (ip : Ipv6) (port : Port) :
    ofIpv6Body (ip.toBytes ++ Port.toBytes port) = some ⟨.ipv6 ip, port⟩ := by
  have htake : (ip.toBytes ++ Port.toBytes port).take 16 = ip.toBytes :=
    List.take_left' ip.length_toBytes
  have hdrop : (ip.toBytes ++ Port.toBytes port).drop 16 = Port.toBytes port :=
    List.drop_left' ip.length_toBytes
  rw [ofIpv6Body, htake, hdrop, Ipv6.ofBytes?_toBytes]
  simp only [Port.toBytes, Port.ofBytes_toBytes]

theorem ofDomainBody_utf8 (name : String) (port : Port) :
    ofDomainBody (utf8 name).length (utf8 name ++ Port.toBytes port) =
      some ⟨.domain name, port⟩ := by
  simp only [ofDomainBody, List.take_left, List.drop_left, decodeUtf8_utf8, Port.toBytes,
    Port.ofBytes_toBytes]

/-- A body is only appended. -/
theorem appendBody_eq (address : Address) (buffer : Bytes) :
    address.appendBody buffer = buffer ++ address.body := by
  obtain ⟨host, port⟩ := address
  cases host with
  | ipv4 ip => exact List.append_assoc _ _ _
  | ipv6 ip => exact List.append_assoc _ _ _
  | domain name => simp [appendBody, body]

/-- So is a wire form, and its length is told. -/
theorem appendTo_eq (address : Address) (buffer : Bytes) :
    address.appendTo buffer = (buffer ++ address.encode, address.encode.length) := by
  have hfilled : address.appendBody (buffer ++ [address.typeByte]) = buffer ++ address.encode := by
    rw [appendBody_eq, List.append_assoc]
    rfl
  simp [appendTo, hfilled]

/-- The type byte and the body are the wire form of an address whose name, if it has one, fits. -/
def IsWire (typeByte : UInt8) (body : Bytes) (address : Address) : Prop :=
  address.Encodable ∧ address.typeByte = typeByte ∧ address.body = body

theorem isWire_ofIpv4Body {body : Bytes} {address : Address} (h : ofIpv4Body body = some address) :
    IsWire 1 body address := by
  unfold ofIpv4Body at h
  split at h
  · rename_i a b c d high low
    cases h
    refine ⟨nofun, rfl, ?_⟩
    show [a, b, c, d] ++ Port.toBytes (Port.ofBytes high low) = _
    rw [Port.toBytes_ofBytes]
    rfl
  · cases h

theorem isWire_ofIpv6Body {body : Bytes} {address : Address} (h : ofIpv6Body body = some address) :
    IsWire 4 body address := by
  unfold ofIpv6Body at h
  split at h
  · rename_i ip high low hip hport
    cases h
    have hlength : (body.take 16).length = 16 := by
      have hdrop := congrArg List.length hport
      rw [List.length_drop, List.length_cons, List.length_cons, List.length_nil] at hdrop
      rw [List.length_take]
      omega
    refine ⟨nofun, rfl, ?_⟩
    show ip.toBytes ++ Port.toBytes (Port.ofBytes high low) = _
    rw [Port.toBytes_ofBytes, Ipv6.toBytes_of_ofBytes? hlength hip, ← hport,
      List.take_append_drop]
  · cases h

theorem isWire_ofDomainBody {length : UInt8} {body : Bytes} {address : Address}
    (hlength : body.length = length.toNat + 2)
    (h : ofDomainBody length.toNat body = some address) : IsWire 3 (length :: body) address := by
  unfold ofDomainBody at h
  split at h
  · rename_i name high low hname hport
    cases h
    have hbytes : utf8 name = body.take length.toNat := utf8_of_decodeUtf8 hname
    have hsize : (utf8 name).length = length.toNat := by
      rw [hbytes, List.length_take]
      omega
    refine ⟨fun other hother => ?_, rfl, ?_⟩
    · cases hother
      have hbyte := length.toNat_lt
      rw [hsize]
      unfold maxDomainLength
      omega
    · show UInt8.ofNat (utf8 name).length ::
        (utf8 name ++ Port.toBytes (Port.ofBytes high low)) = _
      rw [Port.toBytes_ofBytes, hsize, UInt8.ofNat_toNat, hbytes, ← hport, List.take_append_drop]
  · cases h

end Address

end SniffProxy
