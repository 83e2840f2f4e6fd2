import SniffProxy.Net.Address
import SniffProxy.Stream.Session

/-!
# SOCKS5

The handshake of RFC 1928 without authentication, for the CONNECT command: `wrap` is the client's
side, `unwrap` the server's. The client offers the one method, the server selects it, the client
sends the wire form of the destination, and the server answers with a bound address that the client
skips. A server that refuses sends nothing; its caller closes the connection.
-/

namespace SniffProxy

/-- Reads the wire form of an address after its type byte. -/
def Address.readBody (typeByte : UInt8) : Handshake Address := do
  if typeByte = 1 then
    let bytes ← Handshake.readExact 6
    match Address.ofIpv4Body bytes with
    | some address => return address
    | none => throw (.malformedHeader .invalidAddressType)
  else if typeByte = 4 then
    let bytes ← Handshake.readExact 18
    match Address.ofIpv6Body bytes with
    | some address => return address
    | none => throw (.malformedHeader .invalidAddressType)
  else if typeByte = 3 then
    let length ← Handshake.readByte
    let bytes ← Handshake.readExact (length.toNat + 2)
    match Address.ofDomainBody length.toNat bytes with
    | some address => return address
    | none => throw (.malformedHeader .invalidDomainEncoding)
  else throw (.malformedHeader .invalidAddressType)

namespace Socks5

/-- The version byte of the protocol. -/
def version : UInt8 := 5

/-- The method without authentication. -/
def noAuthentication : UInt8 := 0

/-- The command to connect. -/
def connectCommand : UInt8 := 1

/-- The client's offer of the one method. -/
def greeting : Bytes := [version, 1, noAuthentication]

/-- The server's selection of the method. -/
def selection : Bytes := [version, noAuthentication]

/-- The client's request for a destination. -/
def request (address : Address) : Bytes :=
  [version, connectCommand, 0] ++ address.encode

/-- The server's answer of success with an unspecified bound address. -/
def successReply : Bytes := [version, 0, 0, 1, 0, 0, 0, 0, 0, 0]

/-! ## The server's side -/

/-- Reads the client's methods and selects the one without authentication. -/
def negotiate : Handshake Unit := do
  let greeting ← Handshake.readExact 2
  if greeting.getD 0 0 = version then
    let methods ← Handshake.readExact (greeting.getD 1 0).toNat
    if noAuthentication ∈ methods then Handshake.writeAll selection
    else throw (.sniffParse .noAcceptableMethod)
  else throw (.sniffParse (.socksVersion (greeting.getD 0 0)))

/-- Reads the request to connect. -/
def readRequest : Handshake Address := do
  let header ← Handshake.readExact 4
  if header.getD 0 0 = version then
    if header.getD 1 0 = connectCommand then
      let typeByte := header.getD 3 0
      if typeByte = 1 ∨ typeByte = 3 ∨ typeByte = 4 then Address.readBody typeByte
      else throw (.sniffParse (.socksAddressType typeByte))
    else throw (.sniffParse (.socksCommand (header.getD 1 0)))
  else throw (.sniffParse .socksRequestVersion)

/-- Negotiates, reads the request and answers success. -/
def serve : Handshake Address := do
  negotiate
  let address ← readRequest
  Handshake.writeAll successReply
  Handshake.flush
  return address

/-- The failure reported for one of the stream: an end in the middle of a request is a truncated
request. -/
def explain : ProxyError → ProxyError
  | .io error =>
    if error.isEndOfStream then .sniffParse .truncatedSocksRequest else .io error
  | error => error

/-- Serves the handshake and answers the destination. -/
def unwrap : Handshake Address :=
  serve.adapt explain

/-! ## The client's side -/

/-- How many bytes of a bound address follow its type byte. -/
def boundLength (typeByte : UInt8) : Handshake Nat := do
  if typeByte = 1 then return 6
  else if typeByte = 4 then return 18
  else if typeByte = 3 then
    let length ← Handshake.readByte
    return length.toNat + 2
  else throw (.dialFailed .boundAddressType)

/-- Reads the server's selection of a method. -/
def readSelection : Handshake Unit := do
  let selected ← Handshake.readExact 2
  if selected.getD 0 0 = version then
    if selected.getD 1 0 = noAuthentication then return ()
    else throw (.dialFailed .rejectedMethods)
  else throw (.dialFailed .serverVersion)

/-- Reads the server's answer to a request and skips the bound address. -/
def readReply (address : Address) : Handshake Unit := do
  let reply ← Handshake.readExact 4
  if reply.getD 0 0 = version then
    if reply.getD 1 0 = 0 then
      let length ← boundLength (reply.getD 3 0)
      let _ ← Handshake.readExact length
      return ()
    else throw (.dialFailed (.refusedByServer address.toString (reply.getD 1 0)))
  else throw (.dialFailed .replyVersion)

/-- Asks a server for a connection to a destination. -/
def wrap (host : String) (port : Port) : Handshake Unit := do
  let address ← Handshake.ofExcept (Address.ofHostPort host port)
  Handshake.writeAll greeting
  readSelection
  Handshake.writeAll (request address)
  Handshake.flush
  readReply address

end Socks5

end SniffProxy
