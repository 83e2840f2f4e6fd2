import SniffProxy.Proofs.Net.Address
import SniffProxy.Proofs.Stream.Ensuring
import SniffProxy.Transport.Socks5

/-!
# The wire grammar of SOCKS5

Whatever the stream is cut into, a server answers an address only behind a greeting that offers the
method without authentication and a request to connect to that address; and a client that succeeded
had its greeting and its request accepted, and nothing else.

* `Address.readBody_ensures` — the body of an address.
* `Socks5.IsHandshake` — what a server has to be sent.
* `Socks5.IsReply` — what a client has to be answered.
* `Socks5.unwrap_ensures`, `Socks5.wrap_ensures` — what a server and a client took and gave.
* `Socks5.wrap_failsOnly` — how a client may fail.
-/

namespace SniffProxy

/-! ## Bodies -/

/-- So many bytes that were read as an address. -/
theorem Address.decode_ensures (decode : Bytes → Option Address) (error : ProxyError)
    (count : Nat) :
    Handshake.Ensures (do
      let bytes ← Handshake.readExact count
      match decode bytes with
      | some address => return address
      | none => throw error)
      fun taken given address =>
        given = [] ∧ taken.length = count ∧ decode taken = some address := by
  refine (Handshake.ensures_readExact count).bind ?_
  rintro bytes _ _ ⟨rfl, rfl, hlength⟩
  split
  · rename_i address hdecode
    refine Handshake.ensures_pure ⟨rfl, ?_⟩
    rw [List.append_nil]
    exact ⟨hlength, hdecode⟩
  · exact Handshake.ensures_throw _

/-- A body that was read as an address is the wire form of it. -/
theorem Address.readBody_ensures (typeByte : UInt8) :
    (readBody typeByte).Ensures fun taken given address =>
      given = [] ∧ IsWire typeByte taken address := by
  unfold readBody
  split
  · rename_i hfour
    refine (decode_ensures ofIpv4Body _ 6).mono ?_
    rintro _ _ address ⟨rfl, _, hdecode⟩
    exact ⟨rfl, hfour ▸ isWire_ofIpv4Body hdecode⟩
  · split
    · rename_i hsix
      refine (decode_ensures ofIpv6Body _ 18).mono ?_
      rintro _ _ address ⟨rfl, _, hdecode⟩
      exact ⟨rfl, hsix ▸ isWire_ofIpv6Body hdecode⟩
    · split
      · rename_i hdomain
        refine Handshake.ensures_readByte.bind ?_
        rintro _ _ length ⟨rfl, rfl⟩
        refine (decode_ensures (ofDomainBody length.toNat) _ (length.toNat + 2)).mono ?_
        rintro body _ address ⟨rfl, hlength, hdecode⟩
        exact ⟨rfl, hdomain ▸ isWire_ofDomainBody hlength hdecode⟩
      · exact Handshake.ensures_throw _

namespace Socks5

/-- A greeting that offers the method without authentication, and a request to connect to the
address with any reserved byte. -/
def IsHandshake (bytes : Bytes) (address : Address) : Prop :=
  address.Encodable ∧ ∃ (methods : Bytes) (count reserved : UInt8),
    methods.length = count.toNat ∧ noAuthentication ∈ methods ∧
    bytes = version :: count :: methods ++ version :: connectCommand :: reserved :: address.encode

/-! ## The server -/

theorem negotiate_ensures : negotiate.Ensures fun taken given _ =>
    given = selection ∧ ∃ (methods : Bytes) (count : UInt8), methods.length = count.toNat ∧
      noAuthentication ∈ methods ∧ taken = version :: count :: methods := by
  refine (Handshake.ensures_readExact 2).bind ?_
  rintro greeting _ _ ⟨rfl, rfl, hlength⟩
  match greeting, hlength with
  | [first, count], _ =>
    split
    · rename_i hversion
      cases show first = version from hversion
      refine (Handshake.ensures_readExact count.toNat).bind ?_
      rintro methods _ _ ⟨rfl, rfl, hcount⟩
      split
      · rename_i hmethod
        refine (Handshake.ensures_writeAll selection).mono ?_
        rintro _ _ _ ⟨rfl, rfl⟩
        refine ⟨rfl, methods, count, hcount, hmethod, ?_⟩
        rw [List.append_nil]
        rfl
      · exact Handshake.ensures_throw _
    · exact Handshake.ensures_throw _

theorem readRequest_ensures : readRequest.Ensures fun taken given address =>
    given = [] ∧ address.Encodable ∧ ∃ reserved : UInt8,
      taken = version :: connectCommand :: reserved :: address.encode := by
  refine (Handshake.ensures_readExact 4).bind ?_
  rintro header _ _ ⟨rfl, rfl, hlength⟩
  match header, hlength with
  | [first, command, reserved, typeByte], _ =>
    split
    · rename_i hversion
      cases show first = version from hversion
      split
      · rename_i hcommand
        cases show command = connectCommand from hcommand
        dsimp only
        split
        · refine (Address.readBody_ensures typeByte).mono ?_
          rintro _ _ address ⟨rfl, hencodable, rfl, rfl⟩
          exact ⟨rfl, hencodable, reserved, rfl⟩
        · exact Handshake.ensures_throw _
      · exact Handshake.ensures_throw _
    · exact Handshake.ensures_throw _

/-- **Only handshakes are accepted**: on every stream, the bytes taken before an address was
answered are a handshake for it, and it was answered with the selection and the reply. -/
theorem unwrap_ensures : unwrap.Ensures fun taken given address =>
    given = selection ++ successReply ∧ IsHandshake taken address := by
  refine Handshake.Ensures.adapt ?_ explain
  refine negotiate_ensures.bind ?_
  rintro _ _ _ ⟨rfl, methods, count, hcount, hmethod, rfl⟩
  refine readRequest_ensures.bind ?_
  rintro _ _ address ⟨rfl, hencodable, reserved, rfl⟩
  refine (Handshake.ensures_writeAll successReply).bind ?_
  rintro _ _ _ ⟨rfl, rfl⟩
  refine Handshake.ensures_flush.bind ?_
  rintro _ _ _ ⟨rfl, rfl⟩
  refine Handshake.ensures_pure ⟨?_, hencodable, methods, count, reserved, hcount, hmethod, ?_⟩
  · simp
  · simp

/-! ## The client -/

theorem readSelection_ensures :
    readSelection.Ensures fun taken given _ => given = [] ∧ taken = selection := by
  refine (Handshake.ensures_readExact 2).bind ?_
  rintro selected _ _ ⟨rfl, rfl, hlength⟩
  match selected, hlength with
  | [first, method], _ =>
    split
    · rename_i hversion
      split
      · rename_i hmethod
        cases show first = version from hversion
        cases show method = noAuthentication from hmethod
        exact Handshake.ensures_pure ⟨rfl, rfl⟩
      · exact Handshake.ensures_throw _
    · exact Handshake.ensures_throw _

/-- Behind this type byte, these bytes say how long the bound address is. -/
inductive BoundLength : (typeByte : UInt8) → Bytes → Nat → Prop where
  | ipv4 : BoundLength 1 [] 6
  | ipv6 : BoundLength 4 [] 18
  | domain (length : UInt8) : BoundLength 3 [length] (length.toNat + 2)

theorem boundLength_ensures (typeByte : UInt8) :
    (boundLength typeByte).Ensures fun taken given length =>
      given = [] ∧ BoundLength typeByte taken length := by
  unfold boundLength
  split
  · rename_i hfour
    exact Handshake.ensures_pure ⟨rfl, hfour ▸ .ipv4⟩
  · split
    · rename_i hsix
      exact Handshake.ensures_pure ⟨rfl, hsix ▸ .ipv6⟩
    · split
      · rename_i hdomain
        refine Handshake.ensures_readByte.bind ?_
        rintro _ _ length ⟨rfl, rfl⟩
        exact Handshake.ensures_pure ⟨rfl, hdomain ▸ .domain length⟩
      · exact Handshake.ensures_throw _

/-- A selection of the method and an answer of success with any bound address. -/
def IsReply (bytes : Bytes) : Prop :=
  ∃ (reserved typeByte : UInt8) (front bound : Bytes), BoundLength typeByte front bound.length ∧
    bytes = selection ++ (version :: 0 :: reserved :: typeByte :: front ++ bound)

theorem readReply_ensures (address : Address) :
    (readReply address).Ensures fun taken given _ =>
      given = [] ∧ IsReply (selection ++ taken) := by
  refine (Handshake.ensures_readExact 4).bind ?_
  rintro reply _ _ ⟨rfl, rfl, hlength⟩
  match reply, hlength with
  | [first, code, reserved, typeByte], _ =>
    split
    · rename_i hversion
      cases show first = version from hversion
      split
      · rename_i hcode
        cases show code = 0 from hcode
        refine (boundLength_ensures typeByte).bind ?_
        rintro front _ length ⟨rfl, hfront⟩
        refine (Handshake.ensures_readExact length).bind ?_
        rintro bound _ _ ⟨rfl, rfl, rfl⟩
        refine Handshake.ensures_pure ⟨rfl, reserved, typeByte, front, bound, hfront, ?_⟩
        rw [List.append_nil]
        rfl
      · exact Handshake.ensures_throw _
    · exact Handshake.ensures_throw _

/-- **A client that succeeded gave its greeting and its request**, and nothing else, and took just
the selection and the reply. -/
theorem wrap_ensures {host : String} {port : Port} {address : Address}
    (h : Address.ofHostPort host port = .ok address) :
    (wrap host port).Ensures fun taken given _ =>
      given = greeting ++ request address ∧ IsReply taken := by
  rw [wrap, h]
  refine (Handshake.ensures_ofExcept_ok address).bind ?_
  rintro _ _ _ ⟨rfl, rfl, rfl⟩
  refine (Handshake.ensures_writeAll greeting).bind ?_
  rintro _ _ _ ⟨rfl, rfl⟩
  refine readSelection_ensures.bind ?_
  rintro _ _ _ ⟨rfl, rfl⟩
  refine (Handshake.ensures_writeAll _).bind ?_
  rintro _ _ _ ⟨rfl, rfl⟩
  refine Handshake.ensures_flush.bind ?_
  rintro _ _ _ ⟨rfl, rfl⟩
  refine (readReply_ensures _).mono ?_
  rintro taken _ _ ⟨rfl, hreply⟩
  exact ⟨by simp, hreply⟩

/-! ## Failures of the client -/

section

variable {cause : ProxyError → Prop} (hio : ∀ error, cause (.io error))
  (hfault : ∀ fault, cause (.dialFailed fault))

include hio hfault

theorem readSelection_failsOnly : readSelection.FailsOnly cause := by
  refine (Handshake.failsOnly_ofIo _ hio).bind fun selected => ?_
  split
  · split
    · exact Handshake.failsOnly_pure ()
    · exact Handshake.failsOnly_throw (hfault _)
  · exact Handshake.failsOnly_throw (hfault _)

theorem boundLength_failsOnly (typeByte : UInt8) : (boundLength typeByte).FailsOnly cause := by
  unfold boundLength
  split
  · exact Handshake.failsOnly_pure 6
  · split
    · exact Handshake.failsOnly_pure 18
    · split
      · exact (Handshake.failsOnly_ofIo _ hio).bind fun _ => Handshake.failsOnly_pure _
      · exact Handshake.failsOnly_throw (hfault _)

theorem readReply_failsOnly (address : Address) : (readReply address).FailsOnly cause := by
  refine (Handshake.failsOnly_ofIo _ hio).bind fun reply => ?_
  split
  · split
    · refine (boundLength_failsOnly hio hfault _).bind fun length => ?_
      exact (Handshake.failsOnly_ofIo _ hio).bind fun _ => Handshake.failsOnly_pure ()
    · exact Handshake.failsOnly_throw (hfault _)
  · exact Handshake.failsOnly_throw (hfault _)

/-- A client with an address fails only with its stream or at its server. -/
theorem wrap_failsOnly {host : String} {port : Port} {address : Address}
    (h : Address.ofHostPort host port = .ok address) : (wrap host port).FailsOnly cause := by
  rw [wrap, h]
  refine (Handshake.failsOnly_pure address).bind fun address => ?_
  refine (Handshake.failsOnly_ofIo _ hio).bind fun _ => ?_
  refine (readSelection_failsOnly hio hfault).bind fun _ => ?_
  refine (Handshake.failsOnly_ofIo _ hio).bind fun _ => ?_
  refine (Handshake.failsOnly_ofIo _ hio).bind fun _ => ?_
  exact readReply_failsOnly hio hfault address

end

end Socks5

end SniffProxy
