import SniffProxy.Digest.Sha2
import SniffProxy.Net.Address
import SniffProxy.Stream.Session

/-!
# Trojan requests

A request is the secret (the SHA-224 digest of the password in 56 hexadecimal digits), CRLF, a
command byte, the wire form of the destination, and CRLF. The client writes it in one write. The
server issues one read for each field and requires the exact count, so a peer that drips its request
fails at once instead of holding the connection.
-/

namespace SniffProxy.Trojan

/-- The commands of the protocol. -/
inductive Command where
  | connect
  | udpAssociate
  deriving DecidableEq, Repr

/-- The byte of a command. -/
def Command.toByte : Command → UInt8
  | connect => 1
  | udpAssociate => 3

/-- The command with this byte. -/
def Command.ofByte (b : UInt8) : Except HeaderFault Command :=
  if b = 1 then .ok connect
  else if b = 3 then .ok udpAssociate
  else .error .invalidTrojanCommand

/-- The 56 bytes that prove knowledge of the password. -/
def secret (password : String) : Bytes :=
  utf8 (hex (Sha2.sha224 (utf8 password)))

/-- Carriage return and line feed. -/
def crlf : Bytes := [0x0D, 0x0A]

/-- The fixed part of a request: secret, CRLF, command and address type. -/
def headLength : Nat := 60

/-- The head of a request to connect. -/
def head (secret : Bytes) (typeByte : UInt8) : Bytes :=
  secret ++ crlf ++ [Command.connect.toByte, typeByte]

/-- The heads of a client, one for each kind of address. -/
structure Heads where
  ipv4 : Bytes
  ipv6 : Bytes
  domain : Bytes

namespace Heads

/-- The heads with a secret. -/
def ofSecret (secret : Bytes) : Heads where
  ipv4 := head secret 1
  ipv6 := head secret 4
  domain := head secret 3

/-- The head of the requests for a destination. -/
def select (heads : Heads) (address : Address) : Bytes :=
  match address.host with
  | .ipv4 _ => heads.ipv4
  | .ipv6 _ => heads.ipv6
  | .domain _ => heads.domain

/-- The selected head carries the type byte of the destination. -/
@[simp] theorem select_ofSecret (secret : Bytes) (address : Address) :
    (ofSecret secret).select address = head secret address.typeByte := by
  obtain ⟨host, port⟩ := address
  cases host <;> rfl

end Heads

/-- The request for a destination. -/
def request (password : String) (host : String) (port : Port) : Except ProxyError Bytes :=
  match Address.ofHostPort host port with
  | .ok address =>
    .ok ((Heads.ofSecret (secret password)).select address ++ address.body ++ crlf)
  | .error error => .error error

/-- Sends the request for a destination. -/
def wrap (password : String) (host : String) (port : Port) : Handshake Unit := do
  let frame ← Handshake.ofExcept (request password host port)
  Handshake.writeFrame frame

/-- Checks the two bytes that end a request. -/
def checkTail (tail : Bytes) : Except ProxyError Unit :=
  if tail = crlf then .ok () else .error (.malformedHeader .missingAddressCrlf)

/-- The address of a body, which a length check has already made complete. -/
def orInvalid (fault : HeaderFault) : Option Address → Except ProxyError Address
  | some address => .ok address
  | none => .error (.malformedHeader fault)

/-- The event that a request carried another secret. -/
def secretMismatch : LogEvent where
  level := .debug
  target := .trojanTransport
  message := "Trojan secret mismatch"

/-- Reads the address and the closing CRLF of a request. -/
def readAddress (typeByte : UInt8) : Handshake Address := do
  if typeByte = 1 then
    let bytes ← Handshake.readOnce 8
    Handshake.ofExcept (checkTail (bytes.drop 6))
    Handshake.ofExcept (orInvalid .invalidAddressType (Address.ofIpv4Body (bytes.take 6)))
  else if typeByte = 4 then
    let bytes ← Handshake.readOnce 20
    Handshake.ofExcept (checkTail (bytes.drop 18))
    Handshake.ofExcept (orInvalid .invalidAddressType (Address.ofIpv6Body (bytes.take 18)))
  else if typeByte = 3 then
    let length ← Handshake.readOnce 1
    let length := (length.headD 0).toNat
    let bytes ← Handshake.readOnce (length + 4)
    Handshake.ofExcept (checkTail (bytes.drop (length + 2)))
    Handshake.ofExcept
      (orInvalid .invalidDomainEncoding (Address.ofDomainBody length (bytes.take (length + 2))))
  else throw (.malformedHeader .invalidAddressType)

/-- Reads a request and answers its destination. -/
def unwrap (password : String) : Handshake Address := do
  let head ← Handshake.readOnce headLength
  if head.take 56 = secret password then
    if (head.drop 56).take 2 = crlf then
      match Command.ofByte (head.getD 58 0) with
      | .ok _ => readAddress (head.getD 59 0)
      | .error fault => throw (.malformedHeader fault)
    else throw (.malformedHeader .missingSecretCrlf)
  else
    Handshake.report secretMismatch
    throw .authenticationFailure

end SniffProxy.Trojan
