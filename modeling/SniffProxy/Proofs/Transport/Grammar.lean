import SniffProxy.Proofs.Stream.Ensuring
import SniffProxy.Proofs.Transport.Agreement

/-!
# What a trojan server accepts

A trojan server accepts the requests of its password and nothing else. Whatever the stream, the
bytes that it took before it answered an address are a request for that address; and every request
that arrives as one event is answered with its address, whatever comes behind it.

* `Trojan.IsRequest` — the wire grammar of requests.
* `Trojan.unwrap_ensures` — only requests are accepted, on streams cut in any way.
* `Trojan.unwrap_accepts_iff` — of the bytes of one event, exactly the requests are accepted.
-/

namespace SniffProxy.Trojan

/-- The requests for an address: secret, CRLF, one of the two commands, the wire form of the address
and CRLF. The name of a domain fits behind its length byte, and may be empty. -/
def IsRequest (password : String) (bytes : Bytes) (address : Address) : Prop :=
  address.Encodable ∧ ∃ command : UInt8, (command = 1 ∨ command = 3) ∧
    bytes = secret password ++ crlf ++ command :: address.encode ++ crlf

/-! ## Only requests -/

theorem eq_of_ofByte {byte : UInt8} {command : Command} (h : Command.ofByte byte = .ok command) :
    byte = 1 ∨ byte = 3 := by
  unfold Command.ofByte at h
  split at h
  · rename_i hbyte
    exact .inl hbyte
  · split at h
    · rename_i hbyte
      exact .inr hbyte
    · cases h

/-- A head of the right length, secret and CRLF is made up of these and the two bytes behind them.
-/
theorem head_eq {password : String} {head : Bytes} (hlength : head.length = headLength)
    (hsecret : head.take 56 = secret password) (hcrlf : (head.drop 56).take 2 = crlf) :
    ∃ command typeByte, head = secret password ++ crlf ++ [command, typeByte] := by
  have hlast : ((head.drop 56).drop 2).length = 2 := by
    rw [List.length_drop, List.length_drop, hlength]
    rfl
  match htwo : (head.drop 56).drop 2, hlast with
  | [command, typeByte], _ =>
    refine ⟨command, typeByte, ?_⟩
    rw [← hsecret, ← hcrlf, ← htwo, List.append_assoc, List.take_append_drop,
      List.take_append_drop]

/-- A body that the server accepted stood before a CRLF. -/
theorem body_ensures (decode : Bytes → Option Address) (fault : HeaderFault) (k : Nat) :
    Handshake.Ensures (do
      let bytes ← Handshake.readOnce (k + 2)
      Handshake.ofExcept (checkTail (bytes.drop k))
      Handshake.ofExcept (orInvalid fault (decode (bytes.take k))))
      fun taken given address => given = [] ∧
        ∃ body, body.length = k ∧ decode body = some address ∧ taken = body ++ crlf := by
  refine (Handshake.ensures_readOnce (k + 2)).bind ?_
  rintro bytes _ _ ⟨rfl, rfl, hlength⟩
  have hcheck : (Handshake.ofExcept (checkTail (bytes.drop k))).Ensures fun taken given _ =>
      taken = [] ∧ given = [] ∧ bytes.drop k = crlf := by
    refine Handshake.ensures_ofExcept fun _ htail => ⟨rfl, rfl, ?_⟩
    unfold checkTail at htail
    split at htail
    · assumption
    · cases htail
  refine hcheck.bind ?_
  rintro _ _ _ ⟨rfl, rfl, htail⟩
  refine Handshake.ensures_ofExcept fun address hdecode => ⟨rfl, bytes.take k, ?_, ?_, ?_⟩
  · rw [List.length_take, hlength]
    omega
  · unfold orInvalid at hdecode
    split at hdecode
    · rename_i found hfound
      cases hdecode
      exact hfound
    · cases hdecode
  · rw [← htail, List.take_append_drop, List.append_nil, List.append_nil]

theorem readAddress_ensures (typeByte : UInt8) :
    (readAddress typeByte).Ensures fun taken given address => given = [] ∧
      ∃ body, taken = body ++ crlf ∧ Address.IsWire typeByte body address := by
  unfold readAddress
  split
  · rename_i hfour
    refine (body_ensures Address.ofIpv4Body _ 6).mono ?_
    rintro _ _ address ⟨rfl, body, _, hdecode, rfl⟩
    exact ⟨rfl, body, rfl, hfour ▸ Address.isWire_ofIpv4Body hdecode⟩
  · split
    · rename_i hsix
      refine (body_ensures Address.ofIpv6Body _ 18).mono ?_
      rintro _ _ address ⟨rfl, body, _, hdecode, rfl⟩
      exact ⟨rfl, body, rfl, hsix ▸ Address.isWire_ofIpv6Body hdecode⟩
    · split
      · rename_i hdomain
        refine (Handshake.ensures_readOnce 1).bind ?_
        rintro bytes _ _ ⟨rfl, rfl, hlength⟩
        obtain ⟨length, rfl⟩ := List.length_eq_one_iff.mp hlength
        refine (body_ensures (Address.ofDomainBody length.toNat) _ (length.toNat + 2)).mono ?_
        rintro _ _ address ⟨rfl, body, hbody, hdecode, rfl⟩
        exact ⟨rfl, length :: body, rfl, hdomain ▸ Address.isWire_ofDomainBody hbody hdecode⟩
      · exact Handshake.ensures_throw _

/-- **Only requests are accepted**: on every stream, the bytes taken before an address was answered
are a request for it. Nothing is written. -/
theorem unwrap_ensures (password : String) :
    (unwrap password).Ensures fun taken given address =>
      given = [] ∧ IsRequest password taken address := by
  refine (Handshake.ensures_readOnce headLength).bind ?_
  rintro head _ _ ⟨rfl, rfl, hlength⟩
  split
  · rename_i hsecret
    split
    · rename_i hcrlf
      obtain ⟨byte, typeByte, rfl⟩ := head_eq hlength hsecret hcrlf
      obtain ⟨hbyte, htype⟩ := getD_head password byte typeByte
      rw [hbyte, htype]
      split
      · rename_i command hcommand
        refine (readAddress_ensures typeByte).mono ?_
        rintro _ _ address ⟨rfl, body, rfl, hencodable, rfl, rfl⟩
        refine ⟨rfl, hencodable, byte, eq_of_ofByte hcommand, ?_⟩
        simp only [Address.encode, List.append_assoc, List.cons_append, List.nil_append]
      · exact Handshake.ensures_throw _
    · exact Handshake.ensures_throw _
  · exact (Handshake.ensures_report _).bind fun _ _ _ _ => Handshake.ensures_throw _

/-! ## All requests -/

theorem IsRequest.takesFields {password : String} {bytes : Bytes} {address : Address}
    (h : IsRequest password bytes address) :
    (unwrap password).TakesFields bytes (headLength :: bodyFields address) address := by
  obtain ⟨hencodable, byte, hbyte, rfl⟩ := h
  have hcommand : ∃ command, Command.ofByte byte = .ok command := by
    obtain rfl | rfl := hbyte
    · exact ⟨.connect, rfl⟩
    · exact ⟨.udpAssociate, rfl⟩
  obtain ⟨command, hcommand⟩ := hcommand
  have htakes := unwrap_takesFields password hcommand hencodable
  simpa only [Address.encode, List.append_assoc, List.cons_append, List.nil_append] using htakes

theorem IsRequest.takes {password : String} {bytes : Bytes} {address : Address}
    (h : IsRequest password bytes address) : (unwrap password).Takes bytes address :=
  h.takesFields.takes

/-- The request of a client is the one with the command to connect. -/
theorem request_eq (password host : String) (port : Port) :
    request password host port = (Address.ofHostPort host port).map fun address =>
      secret password ++ crlf ++ (1 : UInt8) :: address.encode ++ crlf := by
  unfold request
  split
  · rename_i address haddress
    rw [haddress]
    simp only [Heads.select_ofSecret, Except.map, head, Command.toByte, Address.encode,
      List.append_assoc, List.cons_append, List.nil_append]
  · rename_i error herror
    rw [herror]
    rfl

/-- **A trojan server accepts exactly its wire grammar.** Of bytes that arrive as one event, it
answers an address and leaves a rest just when they are a request for that address and the rest,
whatever the stream holds behind the event. So the address encodes to the bytes that were taken.
What a client sends is the request with the command to connect for the address of the host text. -/
theorem unwrap_accepts_iff (password : String) :
    (secret password).length = 56 ∧
    (∀ (script : Script) (due now : Nat) (bytes rest : Bytes) (address : Address),
      (∃ time after log, (unwrap password).session.run none now (script.holding due bytes) =
          .finished (.ok address) time after log ∧ after.content = rest ++ script.content) ↔
        ∃ taken, bytes = taken ++ rest ∧ IsRequest password taken address) ∧
    ∀ (host : String) (port : Port),
      request password host port = (Address.ofHostPort host port).map fun address =>
        secret password ++ crlf ++ (1 : UInt8) :: address.encode ++ crlf := by
  refine ⟨length_secret password, fun script due now bytes rest address => ⟨?_, ?_⟩,
    request_eq password⟩
  · rintro ⟨time, after, log, hrun, hrest⟩
    obtain ⟨taken, _, hcontent, _, _, hrequest⟩ := unwrap_ensures password hrun
    rw [Script.holding_content, hrest, ← List.append_assoc] at hcontent
    exact ⟨taken, List.append_cancel_right hcontent, hrequest⟩
  · rintro ⟨taken, rfl, hrequest⟩
    obtain ⟨time, hrun⟩ := hrequest.takes rest script due now
    exact ⟨time, _, [], hrun, script.holding_content due rest⟩

end SniffProxy.Trojan
