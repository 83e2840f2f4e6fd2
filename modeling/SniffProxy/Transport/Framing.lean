import SniffProxy.Transport.Remote
import SniffProxy.Transport.Trojan
import SniffProxy.Transport.Compact
import SniffProxy.Transport.Socks5

/-!
# Transports

One type for the ways in which a destination is announced on a stream: `Transport.wrap` writes the
request on a fresh outbound stream, `Transport.unwrap` reads it from a fresh inbound one. An SSH
channel carries its target in the opening of the channel, so nothing is written on the stream.
-/

namespace SniffProxy

/-- A way to announce destinations, with what it has to know. -/
inductive Transport where
  | compact (password : String)
  | trojan (password : String)
  | socks5
  | ssh
  deriving DecidableEq, Repr

namespace Transport

/-- The kind of remote that speaks this transport. -/
def kind : Transport → RemoteKind
  | compact _ => .compact
  | trojan _ => .trojan
  | socks5 => .socks5
  | ssh => .sshd

/-- Announces a destination on an outbound stream. -/
def wrap : Transport → (host : String) → (port : Port) → Handshake Unit
  | compact password, host, port => Compact.wrap password host port
  | trojan password, host, port => Trojan.wrap password host port
  | socks5, host, port => Socks5.wrap host port
  | ssh, _, _ => return ()

/-- Reads the destination announced on an inbound stream. -/
def unwrap : Transport → Handshake Address
  | compact password => Compact.unwrap password
  | trojan password => Trojan.unwrap password
  | socks5 => Socks5.unwrap
  | ssh => throw (.unsupported .inboundSsh)

end Transport

end SniffProxy
