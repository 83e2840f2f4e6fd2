import SniffProxy.Net.Ipv6
import SniffProxy.Error

/-!
# Destination addresses

A destination is a host — an IPv4 address, an IPv6 address or a domain name — and a port. The wire
form, shared by the transports, is a type byte followed by the body: four address bytes, sixteen
address bytes, or a length byte and the name; then the port.

* `Address.ofHostPort` classifies a host text; a mapped IPv4 address is an IPv4 address, and a name
  of more than 255 bytes is refused.
* `Address.encode` is the type byte and `Address.body`; `Address.appendTo` writes it to a buffer.
-/

namespace SniffProxy

/-- Where a connection is to go. -/
inductive Host where
  | ipv4 (ip : Ipv4)
  | ipv6 (ip : Ipv6)
  | domain (name : String)
  deriving DecidableEq, Repr

/-- A destination. -/
structure Address where
  host : Host
  port : Port
  deriving DecidableEq, Repr

/-- The longest name that a one-byte length can describe. -/
def maxDomainLength : Nat := 255

namespace Host

/-- The text of a host, an IPv6 address without brackets. -/
def text : Host → String
  | ipv4 ip => ip.toString
  | ipv6 ip => ip.toString
  | domain name => name

/-- A text without the brackets around it, if it has both. -/
def unbracket (cs : List Char) : List Char :=
  match cs with
  | '[' :: rest => if rest.getLast? = some ']' then rest.dropLast else cs
  | _ => cs

/-- The IP address that a text is a literal of; a mapped IPv4 address counts as IPv4. -/
def ofLiteral? (cs : List Char) : Option Host :=
  match Ipv4.ofChars? cs with
  | some ip => some (ipv4 ip)
  | none =>
    match Ipv6.ofChars? (unbracket cs) with
    | some ip =>
      match ip.mapped? with
      | some v4 => some (ipv4 v4)
      | none => some (ipv6 ip)
    | none => none

end Host

namespace Address

/-! ## Texts -/

/-- Classifies a host text: IPv4 literal, IPv6 literal with or without brackets, or else domain. -/
def ofHostPort (host : String) (port : Port) : Except ProxyError Address :=
  match Host.ofLiteral? host.toList with
  | some literal => .ok ⟨literal, port⟩
  | none =>
    if maxDomainLength < (utf8 host).length then .error (.domainTooLong (utf8 host).length)
    else .ok ⟨.domain host, port⟩

/-- The text of a destination, an IPv6 address in brackets. -/
def toString (address : Address) : String :=
  match address.host with
  | .ipv6 ip => HostPort.join ("[" ++ ip.toString ++ "]") address.port
  | host => HostPort.join host.text address.port

/-- The host text and the port. -/
def target (address : Address) : HostPort :=
  ⟨address.host.text, address.port⟩

/-! ## Wire form -/

/-- The byte that tells the three kinds of host apart. -/
def typeByte (address : Address) : UInt8 :=
  match address.host with
  | .ipv4 _ => 1
  | .domain _ => 3
  | .ipv6 _ => 4

/-- The wire form without the type byte. -/
def body (address : Address) : Bytes :=
  match address.host with
  | .ipv4 ip => ip.toBytes ++ Port.toBytes address.port
  | .ipv6 ip => ip.toBytes ++ Port.toBytes address.port
  | .domain name =>
    UInt8.ofNat (utf8 name).length :: (utf8 name ++ Port.toBytes address.port)

/-- The wire form. -/
def encode (address : Address) : Bytes :=
  address.typeByte :: address.body

/-- A buffer with the wire form without the type byte behind it. -/
def appendBody (address : Address) (buffer : Bytes) : Bytes :=
  match address.host with
  | .ipv4 ip => buffer ++ ip.toBytes ++ Port.toBytes address.port
  | .ipv6 ip => buffer ++ ip.toBytes ++ Port.toBytes address.port
  | .domain name =>
    buffer ++ [UInt8.ofNat (utf8 name).length] ++ utf8 name ++ Port.toBytes address.port

/-- A buffer with the wire form behind it, and by how many bytes it grew. -/
def appendTo (address : Address) (buffer : Bytes) : Bytes × Nat :=
  let filled := address.appendBody (buffer ++ [address.typeByte])
  (filled, filled.length - buffer.length)

/-- The address in the six bytes of an IPv4 body. -/
def ofIpv4Body : Bytes → Option Address
  | [a, b, c, d, high, low] => some ⟨.ipv4 ⟨a, b, c, d⟩, Port.ofBytes high low⟩
  | _ => none

/-- The address in the eighteen bytes of an IPv6 body. -/
def ofIpv6Body (bytes : Bytes) : Option Address :=
  match Ipv6.ofBytes? (bytes.take 16), bytes.drop 16 with
  | some ip, [high, low] => some ⟨.ipv6 ip, Port.ofBytes high low⟩
  | _, _ => none

/-- The address in the bytes of a domain body after its length byte: the name and the port. -/
def ofDomainBody (length : Nat) (bytes : Bytes) : Option Address :=
  match decodeUtf8 (bytes.take length), bytes.drop length with
  | some name, [high, low] => some ⟨.domain name, Port.ofBytes high low⟩
  | _, _ => none

end Address

end SniffProxy
