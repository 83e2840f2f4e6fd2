import SniffProxy.Digest.Sha2
import SniffProxy.Net.Address
import SniffProxy.Stream.Session

/-!
# Compact framed requests

A request is a key (the first sixteen bytes of the SHA-256 digest of the password), a command byte,
the port, a length byte and the host as text. One layout covers every kind of host; the server
classifies the text as its client would.
-/

namespace SniffProxy.Compact

/-- The sixteen bytes that prove knowledge of the password. -/
def key (password : String) : Bytes :=
  (Sha2.sha256 (utf8 password)).take 16

/-- The byte of the only command. -/
def connectByte : UInt8 := 1

/-- The fixed part of a request: key, command, port and host length. -/
def headLength : Nat := 20

/-- The request for a destination. -/
def request (password : String) (host : String) (port : Port) : Except ProxyError Bytes :=
  if host = "" then .error (.invalidTarget ⟨host, port⟩)
  else if maxDomainLength < (utf8 host).length then .error (.domainTooLong (utf8 host).length)
  else
    .ok (key password ++ connectByte :: Port.toBytes port ++
      UInt8.ofNat (utf8 host).length :: utf8 host)

/-- Sends the request for a destination. -/
def wrap (password : String) (host : String) (port : Port) : Handshake Unit := do
  let frame ← Handshake.ofExcept (request password host port)
  Handshake.writeFrame frame

/-- Reads a request and answers its destination. -/
def unwrap (password : String) : Handshake Address := do
  let head ← Handshake.readOnce headLength
  if head.take 16 = key password then
    if head.getD 16 0 = connectByte then
      let port := Port.ofBytes (head.getD 17 0) (head.getD 18 0)
      let length := (head.getD 19 0).toNat
      if length = 0 then throw (.malformedHeader .emptyHost)
      else
        let bytes ← Handshake.readOnce length
        match decodeUtf8 bytes with
        | some host => Handshake.ofExcept (Address.ofHostPort host port)
        | none => throw (.malformedHeader .invalidHostEncoding)
    else throw (.malformedHeader .invalidCompactCommand)
  else throw .authenticationFailure

end SniffProxy.Compact
