import SniffProxy.Net.DnsName
import SniffProxy.Net.Network
import SniffProxy.Config.Basic
import SniffProxy.Dialing
import SniffProxy.Transport.Framing

/-!
# Dialers

How connections are opened: directly, or through the remote, to which the destination is announced
before the connection is handed out. Connecting is given up after a timeout; announcing is not.

* `ProxyDialer.ofRemote` — the dialer for the remote of a configuration.
* `ProxyDialer.dial`, `dialDirect` — opening a connection.
-/

namespace SniffProxy

/-- The refusal of a target that cannot be dialed: one without a host or a port. -/
def targetError (target : HostPort) : Option ProxyError :=
  if target.host = "" ∨ target.port = 0 then some (.invalidTarget target) else none

variable {σ : Type}

/-- Opens a TCP connection, and has it send at once what is written: how long it took, and what came
of it. -/
def connectTcp (network : Network σ) (timeout : Nat) (remote : HostPort) :
    Nat × Except ProxyError σ :=
  match (network.tcp remote).within timeout (.connectTimedOut remote) (.connect remote) with
  | (took, .ok stream) => (took, (network.noDelay stream).mapError .io)
  | (took, .error error) => (took, .error error)

/-- Opens a connection to a target itself. -/
def dialDirect (network : Network σ) (timeout : Nat) (target : HostPort) : Dialing σ :=
  match targetError target with
  | some error => .failed error none 0 []
  | none =>
    match connectTcp network timeout target with
    | (took, .ok stream) => .opened stream took []
    | (took, .error error) => .failed error none took []

/-- Opens a TLS connection. The timeout covers the connection and the handshake together. -/
def connectTls (network : Network σ) (timeout : Nat) (remote : HostPort) :
    Nat × Except ProxyError σ :=
  let handshake := (network.tcp remote).bind fun stream =>
    match network.noDelay stream with
    | .ok stream => network.tls remote.host stream
    | .error error => .ended 0 (.error error)
  handshake.within timeout (.connectTimedOut remote) (.tls remote)

/-- Opens a channel of the SSH session with a server. -/
def connectChannel (network : Network σ) (timeout : Nat) (server target : HostPort) :
    Nat × Except ProxyError σ :=
  (network.channel server target).within timeout (.channelTimedOut target) (.channel target)

/-! ## Through the remote -/

/-- How the remote itself is reached. -/
inductive RemoteLink where
  | tls (remote : HostPort)
  | tcp (remote : HostPort)
  /-- By the channels of a session that is open already. -/
  | ssh (server : HostPort)
  deriving DecidableEq, Repr

/-- Opens connections through a remote. -/
structure ProxyDialer where
  transport : Transport
  link : RemoteLink
  /-- After how many milliseconds connecting to the remote is given up. -/
  connectTimeout : Nat
  deriving DecidableEq, Repr

namespace ProxyDialer

/-- The event that a destination could not be announced. -/
def wrapFailed (target : HostPort) (error : ProxyError) : LogEvent where
  level := .debug
  target := .dialer
  message := "Wrap failed"
  fields := [("host", .quoted target.host), ("port", .number target.port.toNat),
    ("error", .shown error.message)]

/-- Opens the connection on which a target will be announced. Only an SSH channel is told the target
already. -/
def openRemote (dialer : ProxyDialer) (network : Network σ) (target : HostPort) :
    Nat × Except ProxyError σ :=
  match dialer.link with
  | .tls remote => connectTls network dialer.connectTimeout remote
  | .tcp remote => connectTcp network dialer.connectTimeout remote
  | .ssh server => connectChannel network dialer.connectTimeout server target

/-- Opens a connection to a target through the remote. A stream on which the target could not be
announced is closed. -/
def dial [Wire σ] (dialer : ProxyDialer) (network : Network σ) (target : HostPort) : Dialing σ :=
  match targetError target with
  | some error => .failed error none 0 []
  | none =>
    match dialer.openRemote network target with
    | (took, .error error) => .failed error none took []
    | (took, .ok stream) =>
      match Wire.run (dialer.transport.wrap target.host target.port).session stream with
      | none => .pending
      | some (.ok _, time, stream, log) => .opened stream (took + time) log
      | some (.error error, time, stream, log) =>
        .failed error (some stream) (took + time) (log ++ [wrapFailed target error])

/-! ## Making a dialer -/

/-- The event that a dialer is ready. -/
def ready (dialer : ProxyDialer) (remote : RemoteSettings) : LogEvent where
  level := .info
  target := .dialer
  message := "Proxy dialer ready"
  fields := [("remote", .shown remote.address), ("kind", .shown dialer.transport.kind.name)]

/-- The event that an SSH session is open. -/
def sessionEstablished (server : HostPort) (user : String) : LogEvent where
  level := .info
  target := .sshTransport
  message := "SSH session established"
  fields := [("remote", .shown (HostPort.join server.host server.port)), ("user", .quoted user)]

/-- The dialer of a remote that is reached through TLS under its own name. -/
def secure (transport : Transport) (endpoint : HostPort) (timeout : Nat) :
    Except ProxyError ProxyDialer :=
  match PeerName.ofString? endpoint.host with
  | some _ => .ok ⟨transport, .tls endpoint, timeout⟩
  | none => .error (.config (.tlsServerName endpoint.host))

/-- Opens the SSH session of a remote: nothing if that never ends, for a login has no timeout. -/
def openSession (network : Network σ) (timeout : Nat) (server : HostPort)
    (user password : String) : Option (Except ProxyError Unit) :=
  match (network.ssh server).within timeout (.sshTimedOut server) (.ssh server) with
  | (_, .error error) => some (.error error)
  | (_, .ok _) =>
    match network.login server user password with
    | .pending => none
    | .ended _ (.error error) => some (.error (.dialFailed (.sshLogin error)))
    | .ended _ (.ok false) => some (.error (.dialFailed (.sshRejected user)))
    | .ended _ (.ok true) => some (.ok ())

/-- The dialer of a remote, with what was reported. Nothing if it is never made. -/
def ofRemote (network : Network σ) (timeout : Nat) (remote : RemoteSettings) :
    Option (Except ProxyError (ProxyDialer × List LogEvent)) :=
  let made := fun (result : Except ProxyError ProxyDialer) =>
    some (result.map fun dialer => (dialer, [dialer.ready remote]))
  match remote.endpoint with
  | none => made (.error (.config (.invalidRemoteAddress remote.address)))
  | some endpoint =>
    match remote.kind with
    | .compact => made (secure (.compact remote.password) endpoint timeout)
    | .trojan => made (secure (.trojan remote.password) endpoint timeout)
    | .socks5 => made (.ok ⟨.socks5, .tcp endpoint, timeout⟩)
    | .sshd =>
      (openSession network timeout endpoint remote.user remote.password).map fun session =>
        session.map fun _ =>
          let dialer : ProxyDialer := ⟨.ssh, .ssh endpoint, timeout⟩
          (dialer, [sessionEstablished endpoint remote.user, dialer.ready remote])

end ProxyDialer

end SniffProxy
