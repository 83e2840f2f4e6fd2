import SniffProxy.Transport.Framing
import SniffProxy.Proofs.Net.Address
import SniffProxy.Proofs.Stream.Pieces

/-!
# The transports agree

A trojan client classifies the host text before it encodes it, a compact server after it decoded it.
For every host text that can be announced at all, both servers come to the same address, and leave
the payload behind the request unread. Every other host text is refused by all of them.

* `Compact.behindHead` — the compact server once it has read the head, by the four bytes behind the
  key.
* `Trojan.unwrap_takesFields`, `Compact.unwrap_takesFields` — the servers take the fields of a
  request one by one; `Trojan.unwrap_takes`, `Compact.unwrap_takes` — they take what their clients
  send.
* `Transport.agreement` — both end at the same address, or all refuse.
-/

namespace SniffProxy

/-! ## Secrets -/

theorem length_utf8_hex (bytes : Bytes) : (utf8 (hex bytes)).length = 2 * bytes.length := by
  have hdigit : ∀ n < 16, (String.utf8EncodeChar (hexDigit n)).length = 1 := by decide
  rw [hex, utf8_ofList]
  induction bytes with
  | nil => rfl
  | cons b bytes ih =>
    have hb := b.toNat_lt
    have hhigh := hdigit (b.toNat / 16) (by omega)
    have hlow := hdigit (b.toNat % 16) (by omega)
    simp only [hexChars, List.flatMap_cons, List.length_append, List.length_cons, hhigh, hlow, ih]
    omega

theorem Trojan.length_secret (password : String) : (secret password).length = 56 := by
  rw [secret, length_utf8_hex, Sha2.length_sha224]

theorem Compact.length_key (password : String) : (key password).length = 16 := by
  rw [key, List.length_take, Sha2.length_sha256]
  rfl

/-! ## Trojan -/

namespace Trojan

theorem request_eq_ok (password : String) {host : String} {port : Port} {address : Address}
    (h : Address.ofHostPort host port = .ok address) :
    request password host port =
      .ok (head (secret password) address.typeByte ++ (address.body ++ crlf)) := by
  rw [request, h]
  simp only [Heads.select_ofSecret, List.append_assoc]

/-- A body and the CRLF behind it, read at once. -/
theorem body_takesFields {decode : Bytes → Option Address} {body : Bytes} {address : Address}
    {k : Nat} (hlength : body.length = k) (hdecode : decode body = some address)
    (fault : HeaderFault) :
    Handshake.TakesFields (do
      let bytes ← Handshake.readOnce (k + 2)
      Handshake.ofExcept (checkTail (bytes.drop k))
      Handshake.ofExcept (orInvalid fault (decode (bytes.take k)))) (body ++ crlf) [k + 2]
        address := by
  have hcount : (body ++ crlf).length = k + 2 := by
    rw [List.length_append, hlength]
    rfl
  refine (Handshake.takesFields_readOnce hcount (by omega)).bind_nil ?_
  rw [List.take_left' hlength, List.drop_left' hlength, hdecode]
  exact (Handshake.takesFields_ofExcept ()).bind_nil (Handshake.takesFields_ofExcept address)

/-- The widths of the fields behind the head of a request. -/
def bodyFields (address : Address) : List Nat :=
  match address.host with
  | .ipv4 _ => [8]
  | .ipv6 _ => [20]
  | .domain name => [1, (utf8 name).length + 4]

theorem readAddress_takesFields {address : Address} (h : address.Encodable) :
    (readAddress address.typeByte).TakesFields (address.body ++ crlf) (bodyFields address)
      address := by
  obtain ⟨host, port⟩ := address
  cases host with
  | ipv4 ip =>
    show (readAddress 1).TakesFields (ip.toBytes ++ Port.toBytes port ++ crlf) [8] _
    rw [readAddress, if_pos rfl]
    exact body_takesFields rfl (Address.ofIpv4Body_toBytes ip port) _
  | ipv6 ip =>
    show (readAddress 4).TakesFields (ip.toBytes ++ Port.toBytes port ++ crlf) [20] _
    have hbody : (ip.toBytes ++ Port.toBytes port).length = 18 := by simp
    rw [readAddress, if_neg (by decide), if_pos rfl]
    exact body_takesFields hbody (Address.ofIpv6Body_toBytes ip port) _
  | domain name =>
    show (readAddress 3).TakesFields
      ([UInt8.ofNat (utf8 name).length] ++ (utf8 name ++ Port.toBytes port ++ crlf))
      ([1] ++ [(utf8 name).length + 4]) _
    have hbyte := Address.toNat_length (h name rfl)
    have hbody : (utf8 name ++ Port.toBytes port).length = (utf8 name).length + 2 := by simp
    have hfirst : (Handshake.readOnce 1).TakesFields [UInt8.ofNat (utf8 name).length] [1]
        [UInt8.ofNat (utf8 name).length] := Handshake.takesFields_readOnce rfl Nat.one_pos
    rw [readAddress, if_neg (by decide), if_neg (by decide), if_pos rfl]
    refine hfirst.bind ?_
    dsimp only [List.headD_cons]
    rw [hbyte]
    exact body_takesFields hbody (Address.ofDomainBody_utf8 name port) _

/-- The command and the type byte of a head. -/
theorem getD_head (password : String) (command typeByte : UInt8) :
    (secret password ++ crlf ++ [command, typeByte]).getD 58 0 = command ∧
      (secret password ++ crlf ++ [command, typeByte]).getD 59 0 = typeByte := by
  have hsecret := length_secret password
  constructor <;> simp [crlf, hsecret, List.getD_eq_getElem?_getD]

/-- **A trojan server takes the requests of its password**, whichever of the commands they carry:
the head first, and then the fields of the address. -/
theorem unwrap_takesFields (password : String) {byte : UInt8} {command : Command}
    (hcommand : Command.ofByte byte = .ok command) {address : Address} (h : address.Encodable) :
    (unwrap password).TakesFields
      (secret password ++ crlf ++ [byte, address.typeByte] ++ (address.body ++ crlf))
      (headLength :: bodyFields address) address := by
  have hsecret := length_secret password
  obtain ⟨hbyte, htype⟩ := getD_head password byte address.typeByte
  generalize hhead : secret password ++ crlf ++ [byte, address.typeByte] = head at hbyte htype ⊢
  have hlength : head.length = headLength := by
    simp [← hhead, crlf, hsecret, headLength]
  have htake : head.take 56 = secret password := by
    rw [← hhead, List.append_assoc]
    exact List.take_left' hsecret
  have hcrlf : (head.drop 56).take 2 = crlf := by
    rw [← hhead, List.append_assoc, List.drop_left' hsecret]
    rfl
  rw [unwrap]
  refine (Handshake.takesFields_readOnce hlength (by decide)).bind ?_
  rw [if_pos htake, if_pos hcrlf, hbyte, hcommand, htype]
  exact readAddress_takesFields h

/-- **A trojan server takes what a client with its password sends.** -/
theorem unwrap_takes (password : String) {address : Address} (h : address.Encodable) :
    (unwrap password).Takes (head (secret password) address.typeByte ++ (address.body ++ crlf))
      address :=
  have hconnect : Command.ofByte Command.connect.toByte = .ok .connect := rfl
  (unwrap_takesFields password hconnect h).takes

end Trojan

/-! ## Compact -/

namespace Compact

theorem utf8_ne_nil {host : String} (h : host ≠ "") : utf8 host ≠ [] := by
  intro hnil
  have hdecode := decodeUtf8_utf8 host
  rw [hnil] at hdecode
  exact h (Option.some.inj hdecode).symm

/-- The server behind a head with its key. -/
def behindHead (command high low length : UInt8) : Handshake Address :=
  if command = connectByte then
    if length.toNat = 0 then throw (.malformedHeader .emptyHost)
    else do
      let bytes ← Handshake.readOnce length.toNat
      match decodeUtf8 bytes with
      | some host => Handshake.ofExcept (Address.ofHostPort host (Port.ofBytes high low))
      | none => throw (.malformedHeader .invalidHostEncoding)
  else throw (.malformedHeader .invalidCompactCommand)

theorem unwrap_eq (password : String) :
    unwrap password = (do
      let head ← Handshake.readOnce headLength
      if head.take 16 = key password then
        behindHead (head.getD 16 0) (head.getD 17 0) (head.getD 18 0) (head.getD 19 0)
      else throw .authenticationFailure) := rfl

/-- The fields of a head. -/
theorem head_fields (password : String) (command high low length : UInt8) :
    let head := key password ++ [command, high, low, length]
    head.length = headLength ∧ head.take 16 = key password ∧ head.getD 16 0 = command ∧
      head.getD 17 0 = high ∧ head.getD 18 0 = low ∧ head.getD 19 0 = length := by
  have hkey := length_key password
  refine ⟨by simp [hkey, headLength], List.take_left' hkey, ?_, ?_, ?_, ?_⟩ <;>
    simp [hkey, List.getD_eq_getElem?_getD]

/-- The host text that a head announces is taken at once, and classified as its client would. -/
theorem behindHead_takesFields {host : String} {high low : UInt8} {address : Address}
    (hhost : host ≠ "") (hlength : (utf8 host).length ≤ maxDomainLength)
    (haddress : Address.ofHostPort host (Port.ofBytes high low) = .ok address) :
    (behindHead connectByte high low (UInt8.ofNat (utf8 host).length)).TakesFields (utf8 host)
      [(utf8 host).length] address := by
  have hpos : 0 < (utf8 host).length := List.length_pos_iff.mpr (utf8_ne_nil hhost)
  rw [behindHead, if_pos rfl, Address.toNat_length hlength, if_neg (Nat.ne_of_gt hpos)]
  refine (Handshake.takesFields_readOnce rfl hpos).bind_nil ?_
  rw [decodeUtf8_utf8]
  dsimp only
  rw [haddress]
  exact Handshake.takesFields_ofExcept address

/-- **A compact server takes what a client with its password sends**, the head and then the host,
and classifies the host text as that client would. -/
theorem unwrap_takesFields (password : String) {host : String} {port : Port} {address : Address}
    (hhost : host ≠ "") (hlength : (utf8 host).length ≤ maxDomainLength)
    (haddress : Address.ofHostPort host port = .ok address) :
    (unwrap password).TakesFields ((key password ++ connectByte :: Port.toBytes port ++
      [UInt8.ofNat (utf8 host).length]) ++ utf8 host) [headLength, (utf8 host).length]
      address := by
  rw [← Port.ofBytes_toBytes port] at haddress
  have hhead : key password ++ connectByte :: Port.toBytes port ++
      [UInt8.ofNat (utf8 host).length] = key password ++ [connectByte,
        UInt8.ofNat (port.toNat / 256), UInt8.ofNat (port.toNat % 256),
        UInt8.ofNat (utf8 host).length] := by
    simp [Port.toBytes]
  rw [hhead, unwrap_eq]
  obtain ⟨hcount, htake, hcommand, hhigh, hlow, hlast⟩ := head_fields password connectByte
    (UInt8.ofNat (port.toNat / 256)) (UInt8.ofNat (port.toNat % 256))
    (UInt8.ofNat (utf8 host).length)
  refine (Handshake.takesFields_readOnce hcount (by decide)).bind ?_
  rw [if_pos htake, hcommand, hhigh, hlow, hlast]
  exact behindHead_takesFields hhost hlength haddress

theorem unwrap_takes (password : String) {host : String} {port : Port} {address : Address}
    (hhost : host ≠ "") (hlength : (utf8 host).length ≤ maxDomainLength)
    (haddress : Address.ofHostPort host port = .ok address) :
    (unwrap password).Takes ((key password ++ connectByte :: Port.toBytes port ++
      [UInt8.ofNat (utf8 host).length]) ++ utf8 host) address :=
  (unwrap_takesFields password hhost hlength haddress).takes

end Compact

/-! ## Agreement -/

namespace Transport

/-- A SOCKS5 client that refuses a host text says nothing to the server. -/
theorem socks5_refuses {host : String} {port : Port} {error : ProxyError}
    (h : Address.ofHostPort host port = .error error) :
    (Socks5.wrap host port).session = .done (.error error) := by
  rw [Socks5.wrap, Handshake.session_bind, h]
  rfl

/-- **The transports agree on every destination.** A host text of at most 255 bytes is an address,
and the trojan and the compact server both answer it for their client's request, whatever payload
comes behind the request in the same event, and leave exactly the payload. Every longer host text is
refused by all clients with its length. -/
theorem agreement (password host : String) (port : Port) :
    (host ≠ "" → (utf8 host).length ≤ maxDomainLength →
      ∃ address trojan compact, Address.ofHostPort host port = .ok address ∧
        Trojan.request password host port = .ok trojan ∧
        (Trojan.unwrap password).Takes trojan address ∧
        Compact.request password host port = .ok compact ∧
        (Compact.unwrap password).Takes compact address) ∧
    (maxDomainLength < (utf8 host).length →
      Trojan.request password host port = .error (.domainTooLong (utf8 host).length) ∧
        Compact.request password host port = .error (.domainTooLong (utf8 host).length) ∧
        (Socks5.wrap host port).session = .done (.error (.domainTooLong (utf8 host).length))) := by
  refine ⟨fun hhost hshort => ?_, fun hlong => ?_⟩
  · obtain ⟨address, haddress, hencodable⟩ := Address.ofHostPort_short hshort port
    have htrojan := Trojan.unwrap_takes password hencodable
    have hcompact := Compact.unwrap_takes password hhost hshort haddress
    refine ⟨address, _, _, haddress, ?_, htrojan, ?_, hcompact⟩
    · exact Trojan.request_eq_ok password haddress
    · rw [Compact.request, if_neg hhost, if_neg (Nat.not_lt.mpr hshort), List.append_assoc _ [_]]
      rfl
  · have hrefused := Address.ofHostPort_long hlong port
    have hhost : host ≠ "" := by
      rintro rfl
      exact absurd hlong (by decide)
    refine ⟨?_, ?_, socks5_refuses hrefused⟩
    · rw [Trojan.request, hrefused]
    · rw [Compact.request, if_neg hhost, if_pos hlong]

theorem agreement_bracketed_and_long :
    (∃ address trojan compact, Address.ofHostPort "[::1]" 443 = .ok address ∧
        Trojan.request "key" "[::1]" 443 = .ok trojan ∧
        (Trojan.unwrap "key").Takes trojan address ∧
        Compact.request "key" "[::1]" 443 = .ok compact ∧
        (Compact.unwrap "key").Takes compact address) ∧
      (Socks5.wrap (String.ofList (List.replicate 256 'a')) 443).session =
        .done (.error (.domainTooLong 256)) := by
  have ha : 'a'.utf8Size = 1 := by decide
  have hlength : ∀ n, (utf8 (String.ofList (List.replicate n 'a'))).length = n := by
    intro n
    rw [utf8_ofList]
    simp [List.length_flatMap, ha]
  have hlong := (agreement "key" (String.ofList (List.replicate 256 'a')) 443).2
    (by rw [hlength]; decide)
  rw [hlength] at hlong
  exact ⟨(agreement "key" "[::1]" 443).1 (by decide) (by decide), hlong.2.2⟩

end Transport

end SniffProxy
