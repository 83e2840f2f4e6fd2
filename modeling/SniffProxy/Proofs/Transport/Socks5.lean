import SniffProxy.Proofs.Stream.Dialogue
import SniffProxy.Proofs.Transport.Socks5Grammar

/-!
# The SOCKS5 handshake

Client and server follow dual protocols: the client sends its greeting, takes the selection, sends
the request and takes the reply. So they come to the same address over every pair of channels, and
leave to each other what is behind the handshake.

* `Socks5.exchange` — the protocol as the client sees it.
* `Socks5.wrap_follows`, `Socks5.unwrap_follows` — the two parties follow it.
* `Socks5.wrap_follows_reply`, `Socks5.serve_follows` — with any other partner of either of them.
* `Socks5.client_meets_server` — no deadlock, the one way to end, and nothing but payload is left.
-/

namespace SniffProxy

open Act (sends takes duals)

/-! ## Bodies -/

/-- The body of an address that can be encoded is read to its end and no further. -/
theorem Address.readBody_follows {address : Address} (h : address.Encodable) :
    (readBody address.typeByte).Follows (takes address.body) address := by
  obtain ⟨host, port⟩ := address
  cases host with
  | ipv4 ip =>
    show (readBody 1).Follows (takes (ip.toBytes ++ Port.toBytes port)) _
    rw [readBody, if_pos rfl]
    refine (Handshake.follows_readExact 6 _ rfl).bind_nil ?_
    rw [ofIpv4Body_toBytes]
    exact Handshake.follows_pure _
  | ipv6 ip =>
    show (readBody 4).Follows (takes (ip.toBytes ++ Port.toBytes port)) _
    have hbody : (ip.toBytes ++ Port.toBytes port).length = 18 := by simp
    rw [readBody, if_neg (by decide), if_pos rfl]
    refine (Handshake.follows_readExact _ _ hbody).bind_nil ?_
    rw [ofIpv6Body_toBytes]
    exact Handshake.follows_pure _
  | domain name =>
    show (readBody 3).Follows
      (takes ([UInt8.ofNat (utf8 name).length] ++ (utf8 name ++ Port.toBytes port))) _
    have hbyte := toNat_length (h name rfl)
    have hbody : (utf8 name ++ Port.toBytes port).length = (utf8 name).length + 2 := by simp
    rw [readBody, if_neg (by decide), if_neg (by decide), if_pos rfl, Act.takes_append]
    refine (Handshake.follows_readByte _).bind ?_
    rw [hbyte]
    refine (Handshake.follows_readExact _ _ hbody).bind_nil ?_
    rw [ofDomainBody_utf8]
    exact Handshake.follows_pure _

namespace Socks5

/-- The handshake as the client sees it. -/
def exchange (address : Address) : List Act :=
  sends greeting ++ (takes selection ++ (sends (request address) ++ takes successReply))

/-! ## The client -/

theorem readSelection_follows : readSelection.Follows (takes selection) () := by
  refine (Handshake.follows_readExact 2 selection rfl).bind_nil ?_
  exact Handshake.follows_pure ()

/-- The length of a bound address is read to its end and no further. -/
theorem boundLength_follows {typeByte : UInt8} {front : Bytes} {length : Nat}
    (h : BoundLength typeByte front length) :
    (boundLength typeByte).Follows (takes front) length := by
  cases h with
  | ipv4 => exact Handshake.follows_pure 6
  | ipv6 => exact Handshake.follows_pure 18
  | domain length =>
    refine (Handshake.follows_readByte length).bind_nil ?_
    exact Handshake.follows_pure _

/-- So is an answer of success with any bound address. -/
theorem readReply_follows {typeByte : UInt8} {front bound : Bytes}
    (h : BoundLength typeByte front bound.length) (reserved : UInt8) (address : Address) :
    (readReply address).Follows
      (takes (version :: 0 :: reserved :: typeByte :: front ++ bound)) () := by
  show (readReply address).Follows
    (takes ([version, 0, reserved, typeByte] ++ (front ++ bound))) ()
  rw [Act.takes_append, Act.takes_append]
  refine (Handshake.follows_readExact 4 _ rfl).bind ?_
  refine (boundLength_follows h).bind ?_
  refine (Handshake.follows_readExact _ bound rfl).bind_nil ?_
  exact Handshake.follows_pure ()

/-- The client goes through the whole exchange, with any bound address in the answer. -/
theorem wrap_follows_reply {host : String} {port : Port} {address : Address}
    (haddress : Address.ofHostPort host port = .ok address) {typeByte : UInt8}
    {front bound : Bytes} (h : BoundLength typeByte front bound.length) (reserved : UInt8) :
    (wrap host port).Follows
      (sends greeting ++ (takes selection ++ (sends (request address) ++
        takes (version :: 0 :: reserved :: typeByte :: front ++ bound)))) () := by
  rw [wrap, haddress]
  refine (Handshake.follows_ofExcept address).nil_bind ?_
  refine (Handshake.follows_writeAll greeting).bind ?_
  refine readSelection_follows.bind ?_
  refine (Handshake.follows_writeAll (request address)).bind ?_
  exact Handshake.follows_flush.nil_bind (readReply_follows h reserved address)

/-- **The client follows the protocol** for the address of its host text. -/
theorem wrap_follows {host : String} {port : Port} {address : Address}
    (h : Address.ofHostPort host port = .ok address) :
    (wrap host port).Follows (exchange address) () := by
  have hbound : BoundLength 1 [] ([0, 0, 0, 0, 0, 0] : Bytes).length := .ipv4
  exact wrap_follows_reply h hbound 0

/-! ## The server -/

theorem negotiate_follows {methods : Bytes} {count : UInt8} (hcount : methods.length = count.toNat)
    (hmethod : noAuthentication ∈ methods) :
    negotiate.Follows (takes (version :: count :: methods) ++ sends selection) () := by
  show negotiate.Follows (takes ([version, count] ++ methods) ++ sends selection) ()
  rw [Act.takes_append, List.append_assoc]
  refine (Handshake.follows_readExact 2 _ rfl).bind ?_
  refine (Handshake.follows_readExact count.toNat methods hcount).bind ?_
  show Handshake.Follows (if noAuthentication ∈ methods then _ else _) _ _
  rw [if_pos hmethod]
  exact Handshake.follows_writeAll selection

theorem readRequest_follows {address : Address} (h : address.Encodable) (reserved : UInt8) :
    readRequest.Follows (takes (version :: connectCommand :: reserved :: address.encode))
      address := by
  have htype : address.typeByte = 1 ∨ address.typeByte = 3 ∨ address.typeByte = 4 := by
    unfold Address.typeByte
    split
    · exact .inl rfl
    · exact .inr (.inl rfl)
    · exact .inr (.inr rfl)
  show readRequest.Follows
    (takes ([version, connectCommand, reserved, address.typeByte] ++ address.body)) address
  rw [Act.takes_append]
  refine (Handshake.follows_readExact 4 _ rfl).bind ?_
  show Handshake.Follows (if address.typeByte = 1 ∨ address.typeByte = 3 ∨ address.typeByte = 4 then
    Address.readBody address.typeByte else _) _ _
  rw [if_pos htype]
  exact Address.readBody_follows h

/-- The server goes through the whole exchange, with any methods and any reserved byte. -/
theorem serve_follows {methods : Bytes} {count : UInt8} {address : Address}
    (hcount : methods.length = count.toNat) (hmethod : noAuthentication ∈ methods)
    (h : address.Encodable) (reserved : UInt8) :
    serve.Follows
      (takes (version :: count :: methods) ++ (sends selection ++
        (takes (version :: connectCommand :: reserved :: address.encode) ++
          sends successReply))) address := by
  rw [← List.append_assoc]
  refine (negotiate_follows hcount hmethod).bind ?_
  refine (readRequest_follows h reserved).bind ?_
  refine (Handshake.follows_writeAll successReply).bind_nil ?_
  exact Handshake.follows_flush.nil_bind (Handshake.follows_pure address)

/-- **The server follows the dual protocol** for every address that can be encoded. -/
theorem unwrap_follows {address : Address} (h : address.Encodable) :
    unwrap.Follows (duals (exchange address)) address := by
  refine Handshake.Follows.adapt ?_ explain
  simp only [exchange, Act.duals_append, Act.duals_sends, Act.duals_takes]
  have hcount : [noAuthentication].length = (1 : UInt8).toNat := rfl
  exact serve_follows hcount (List.mem_singleton_self _) h 0

/-! ## Both -/

open Relation (ReflTransGen) in
/-- **A client and a server come to the same address**, over any two channels that lose nothing and
keep the order, whatever pieces are delivered and whoever goes on first. In every state that they
can reach: unless both are done, one of them can go on; where both are done, the client succeeded,
the server has the address, and the channels hold nothing but the payload that each sent after it
was done; and there is a way from it to the end. -/
theorem client_meets_server {host : String} {port : Port} {address : Address}
    (h : Address.ofHostPort host port = .ok address)
    {link : Link (Except ProxyError Unit) (Except ProxyError Address)}
    (hlink : ReflTransGen Link.Step
      (Link.start (wrap host port).session unwrap.session) link) :
    (link.Over ∨ ∃ next, Link.Move link next) ∧
    (link.Over → link.client = .done (.ok ()) ∧ link.server = .done (.ok address) ∧
      link.up = link.upPayload ∧ link.down = link.downPayload) ∧
    ∃ last, ReflTransGen Link.Move link last ∧ last.Over := by
  have hencodable := Address.encodable_of_ofHostPort h
  have hagrees := Link.agrees_of_reachable (wrap_follows h) (unwrap_follows hencodable) hlink
  exact ⟨hagrees.progress, hagrees.of_over, hagrees.completes⟩

open Relation (ReflTransGen) in
/-- A run to the end and beyond: the server sends payload, which stays in the channel. -/
theorem client_meets_server_bracketed :
    ∃ link, ReflTransGen Link.Step
        (Link.start (wrap "[::1]" 443).session unwrap.session) link ∧
      link.client = .done (.ok ()) ∧
      link.server = .done (.ok ⟨.ipv6 ⟨[0, 0, 0, 0, 0, 0, 0, 1], rfl⟩, 443⟩) ∧
      link.up = link.upPayload ∧ link.down = link.downPayload ∧ link.downPayload ≠ [] := by
  have haddress : Address.ofHostPort "[::1]" 443 =
      .ok ⟨.ipv6 ⟨[0, 0, 0, 0, 0, 0, 0, 1], rfl⟩, 443⟩ := by decide
  obtain ⟨_, _, last, hmoves, hover⟩ := client_meets_server haddress .refl
  have hlast := ReflTransGen.mono (fun _ _ => Link.Step.move) _ _ hmoves
  obtain ⟨⟨_, hclient⟩, ⟨_, hserver⟩⟩ := hover
  have hreach := hlast.tail (.serverPayload hserver [72, 105])
  obtain ⟨_, hdone, _⟩ := client_meets_server haddress hreach
  obtain ⟨hclient', hserver', hup, hdown⟩ := hdone ⟨⟨_, hclient⟩, ⟨_, hserver⟩⟩
  exact ⟨_, hreach, hclient', hserver', hup, hdown, by simp⟩

end Socks5

end SniffProxy
