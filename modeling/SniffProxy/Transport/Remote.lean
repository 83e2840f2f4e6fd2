import SniffProxy.Error

/-!
# Kinds of remote

The protocols that a remote may speak, their names in configurations and their default ports.
-/

namespace SniffProxy

/-- What a remote speaks. -/
inductive RemoteKind where
  /-- Compact framed requests over TLS. -/
  | compact
  /-- Trojan over TLS. -/
  | trojan
  /-- Plain SOCKS5. -/
  | socks5
  /-- Channels of an SSH session. -/
  | sshd
  deriving DecidableEq, Repr

namespace RemoteKind

/-- The port of a remote whose address names none. -/
def defaultPort : RemoteKind → Port
  | compact | trojan => 443
  | socks5 => 1080
  | sshd => 22

/-- The name in configurations and messages. -/
def name : RemoteKind → String
  | compact => "sower"
  | trojan => "trojan"
  | socks5 => "socks5"
  | sshd => "sshd"

/-- The kind with this name, in any ASCII case; `ssh` is a second name of `sshd`. -/
def ofName (text : String) : Except ProxyError RemoteKind :=
  match String.ofList (Text.asciiLower text.toList) with
  | "sower" => .ok compact
  | "trojan" => .ok trojan
  | "socks5" => .ok socks5
  | "sshd" => .ok sshd
  | "ssh" => .ok sshd
  | _ => .error (.config (.unknownRemoteType text))

end RemoteKind

end SniffProxy
