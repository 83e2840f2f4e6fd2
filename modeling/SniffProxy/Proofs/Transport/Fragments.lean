import SniffProxy.Proofs.Transport.Grammar

/-!
# Requests in fragments

The servers that take each field with a single read fail at once on a request that comes in
fragments, and only so: however the bytes are cut, the outcome is the one for the bytes at once or a
short read. A request is accepted just when every field arrives whole.

* `Handshake.resultOn` — the result of a handshake on a stream.
* `CutSafe` — what cutting the bytes can do to a server.
* `Transport.fragmentation_safe` — the trojan and the compact server.
-/

namespace SniffProxy

namespace Handshake

variable {α : Type}

/-- The result on a stream, unless the handshake waits for ever. -/
def resultOn (handshake : Handshake α) (now : Nat) (script : Script) :
    Option (Except ProxyError α) :=
  match handshake.session.run none now script with
  | .finished result _ _ _ => some result
  | .waiting _ _ => none

theorem Settles.resultOn {handshake : Handshake α} {script : Script} {pieces rest : List Piece}
    {result : Except ProxyError α} {log : List LogEvent}
    (h : handshake.Settles script pieces result rest log) (now : Nat) :
    handshake.resultOn now (script.bringing pieces) = some result := by
  obtain ⟨time, hrun⟩ := h now
  rw [Handshake.resultOn, hrun]

/-- The bytes of some fields, with anything behind them, give the value unless a border of the
pieces lies inside a field. -/
theorem TakesFields.resultOn_iff {handshake : Handshake α} {bytes payload : Bytes}
    {widths : List Nat} {value : α} (h : handshake.TakesFields bytes widths value)
    {pieces : List Piece} (hcontent : Piece.content pieces = bytes ++ payload) (now : Nat)
    (script : Script) :
    handshake.resultOn now (script.bringing pieces) = some (.ok value) ↔
      ∀ place, Piece.IsBorder pieces place → ¬ Piece.InField widths place := by
  have hsum : widths.sum ≤ (Piece.content pieces).length := by
    rw [hcontent, h.sum, List.length_append]
    omega
  have hborders := Piece.takeAll?_eq_none_iff h.pos hsum
  cases htake : Piece.takeAll? widths pieces with
  | none =>
    obtain ⟨rest, hshort⟩ := h.short hcontent htake script
    obtain ⟨place, hborder, hfield⟩ := hborders.mp htake
    rw [hshort.resultOn now]
    exact ⟨nofun, fun hall => absurd hfield (hall place hborder)⟩
  | some rest =>
    rw [(h.settles hcontent htake script).resultOn now]
    refine ⟨fun _ place hborder hfield => ?_, fun _ => rfl⟩
    rw [hborders.mpr ⟨place, hborder, hfield⟩] at htake
    cases htake

end Handshake

/-- What cutting the bytes can do to a server whose requests are made of fields of known widths. -/
structure CutSafe (server : Handshake Address)
    (IsRequest : Bytes → List Nat → Address → Prop) : Prop where
  /-- However some bytes are cut before the end of the stream, the server ends with the result that
  it has for them at once, or with a short read. -/
  same_or_short : ∀ (pieces : List Piece) (script whole : Script) (due now now' : Nat),
    script.Ended → whole.Ended →
    ∃ result, server.resultOn now' (whole.holding due (Piece.content pieces)) = some result ∧
      (server.resultOn now (script.bringing pieces) = some result ∨
        server.resultOn now (script.bringing pieces) =
          some (.error (.malformedHeader .shortRead)))
  /-- A request at once gives its address, whatever comes behind it; a request in pieces gives it
  just when no border lies strictly inside one of its fields. -/
  same_iff : ∀ (request payload : Bytes) (widths : List Nat) (address : Address),
    IsRequest request widths address →
    ∀ (pieces : List Piece) (script whole : Script) (due now now' : Nat),
    Piece.content pieces = request ++ payload →
    server.resultOn now' (whole.holding due (request ++ payload)) = some (.ok address) ∧
      (server.resultOn now (script.bringing pieces) =
          server.resultOn now' (whole.holding due (request ++ payload)) ↔
        ∀ place, Piece.IsBorder pieces place → ¬ Piece.InField widths place)

/-- A steady server that takes its requests field by field. -/
theorem cutSafe_of_steady {server : Handshake Address}
    {IsRequest : Bytes → List Nat → Address → Prop} (hsteady : server.Steady)
    (htakes : ∀ request widths address, IsRequest request widths address →
      server.TakesFields request widths address) : CutSafe server IsRequest where
  same_or_short := by
    intro pieces script whole due now now' hscript hwhole
    obtain ⟨result, left, log, cut, rest, log', hall, hcut, hsame⟩ :=
      hsteady pieces due script whole hscript hwhole
    refine ⟨result, ?_, ?_⟩
    · rw [Script.holding_eq_bringing, hall.resultOn now']
    · rw [hcut.resultOn now]
      rcases hsame with rfl | ⟨rfl, -⟩
      · exact .inr rfl
      · exact .inl rfl
  same_iff := by
    intro request payload widths address hrequest pieces script whole due now now' hcontent
    have hfields := htakes request widths address hrequest
    have hwhole : server.resultOn now' (whole.holding due (request ++ payload)) =
        some (.ok address) := by
      obtain ⟨time, hrun⟩ := hfields.takes payload whole due now'
      rw [Handshake.resultOn, hrun]
    exact ⟨hwhole, by rw [hwhole]; exact hfields.resultOn_iff hcontent now script⟩

/-! ## Trojan -/

namespace Trojan

theorem body_steady (decode : Bytes → Option Address) (fault : HeaderFault) (k : Nat) :
    Handshake.Steady (do
      let bytes ← Handshake.readOnce (k + 2)
      Handshake.ofExcept (checkTail (bytes.drop k))
      Handshake.ofExcept (orInvalid fault (decode (bytes.take k)))) :=
  (Handshake.steady_readOnce (by omega)).bind fun _ =>
    (Handshake.steady_ofExcept _).bind fun _ => Handshake.steady_ofExcept _

theorem readAddress_steady (typeByte : UInt8) : (readAddress typeByte).Steady := by
  unfold readAddress
  split
  · exact body_steady Address.ofIpv4Body _ 6
  · split
    · exact body_steady Address.ofIpv6Body _ 18
    · split
      · refine (Handshake.steady_readOnce Nat.one_pos).bind fun length => ?_
        exact body_steady (Address.ofDomainBody (length.headD 0).toNat) _
          ((length.headD 0).toNat + 2)
      · exact Handshake.steady_throw _

theorem unwrap_steady (password : String) : (unwrap password).Steady := by
  refine (Handshake.steady_readOnce (by decide)).bind fun head => ?_
  split
  · split
    · split
      · exact readAddress_steady _
      · exact Handshake.steady_throw _
    · exact Handshake.steady_throw _
  · exact Handshake.steady_of_run fun _ _ => rfl

end Trojan

/-! ## Compact -/

namespace Compact

/-- The request for a host text and a port: key, command, port, the length of the host, and the
host, which is not empty and fits behind its length byte. -/
def IsRequest (password : String) (bytes : Bytes) (host : String) (port : Port) : Prop :=
  host ≠ "" ∧ (utf8 host).length ≤ maxDomainLength ∧
    bytes = key password ++ connectByte :: Port.toBytes port ++
      UInt8.ofNat (utf8 host).length :: utf8 host

theorem IsRequest.takesFields {password : String} {bytes : Bytes} {host : String} {port : Port}
    {address : Address} (h : IsRequest password bytes host port)
    (haddress : Address.ofHostPort host port = .ok address) :
    (unwrap password).TakesFields bytes [headLength, (utf8 host).length] address := by
  obtain ⟨hhost, hlength, rfl⟩ := h
  have htakes := unwrap_takesFields password hhost hlength haddress
  rwa [List.append_assoc _ [_]] at htakes

theorem behindHead_steady (command high low length : UInt8) :
    (behindHead command high low length).Steady := by
  unfold behindHead
  split
  · split
    · exact Handshake.steady_throw _
    · refine (Handshake.steady_readOnce (by omega)).bind fun bytes => ?_
      split
      · exact Handshake.steady_ofExcept _
      · exact Handshake.steady_throw _
  · exact Handshake.steady_throw _

theorem unwrap_steady (password : String) : (unwrap password).Steady := by
  rw [unwrap_eq]
  refine (Handshake.steady_readOnce (by decide)).bind fun head => ?_
  split
  · exact behindHead_steady _ _ _ _
  · exact Handshake.steady_throw _

end Compact

/-! ## Both servers -/

namespace Transport

/-- **Single reads are safe under fragmentation.** However some bytes are cut, a trojan and a
compact server end with the result that they have for the bytes at once, or with a short read. Of a
request they miss the address just when a cut goes through one of the fields: the head of 60 or 20
bytes; 8 or 20 bytes of an IP address, or the length byte and then four more bytes than it says; the
host text. -/
theorem fragmentation_safe (password : String) :
    CutSafe (Trojan.unwrap password) (fun request widths address =>
      Trojan.IsRequest password request address ∧
        widths = match address.host with
          | .ipv4 _ => [60, 8]
          | .ipv6 _ => [60, 20]
          | .domain name => [60, 1, (utf8 name).length + 4]) ∧
    CutSafe (Compact.unwrap password) (fun request widths address => ∃ host port,
      Compact.IsRequest password request host port ∧
        Address.ofHostPort host port = .ok address ∧ widths = [20, (utf8 host).length]) := by
  refine ⟨cutSafe_of_steady (Trojan.unwrap_steady password) ?_,
    cutSafe_of_steady (Compact.unwrap_steady password) ?_⟩
  · rintro request widths ⟨host, port⟩ ⟨hrequest, rfl⟩
    cases host <;> exact hrequest.takesFields
  · rintro request widths address ⟨host, port, hrequest, haddress, rfl⟩
    exact hrequest.takesFields haddress

end Transport

end SniffProxy
