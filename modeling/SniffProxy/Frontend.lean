import SniffProxy.Http.Sniff
import SniffProxy.Tls.Sniff
import SniffProxy.Transport.Socks5
import SniffProxy.Stream.Relay
import SniffProxy.Router

/-!
# Front-ends

A front-end serves one accepted connection: it finds the destination, has it dialed by the router,
and relays until the connection is over. Whatever fails, the client is told nothing beyond the
handshake of its own protocol.

* `Environment` — what serving a connection leaves to others.
* `Frontend.sniff` — the session that finds the destination; the peek it answers is to be replayed.
* `Frontend.await` — the same with a deadline, on a scripted client.
* `Frontend.proceed` — the rest of a connection once its destination has been dialed.
* `Frontend.serve` — a whole connection.
-/

namespace SniffProxy

/-- The protocols in which a client may state its destination. -/
inductive Frontend where
  /-- Plain HTTP, by the `Host` header. -/
  | http
  /-- TLS, by the server name. -/
  | https
  /-- Explicit SOCKS5. -/
  | socks5
  deriving DecidableEq, Repr

namespace Frontend

/-- The name of a front-end in the log. -/
def name : Frontend → String
  | http => "http"
  | https => "https"
  | socks5 => "socks5"

/-- What a front-end waits for. -/
def phase : Frontend → SniffPhase
  | http => .httpHead
  | https => .tlsHello
  | socks5 => .socksRequest

/-- The port of a TLS destination. -/
def httpsPort : Port := 443

/-- Finds the destination of a fresh connection. The peek holds what is to be replayed; a SOCKS5
handshake is not. -/
def sniff (acceptor : Tls.Acceptor) : Frontend → Session (Except ProxyError HostPort × Peek)
  | http => (Http.sniff .start).bind fun (found, peek) => .done (found, peek.stop.replay)
  | https =>
    (Tls.sniff acceptor .start).bind fun (found, peek) =>
      .done (found.map fun host => ⟨host, httpsPort⟩, peek.stop.replay)
  | socks5 =>
    Socks5.unwrap.session.bind fun found => .done (found.map Address.target, .transparent)

/-! ## Events -/

/-- The event that no destination was found. -/
def sniffFailed (frontend : Frontend) (error : ProxyError) : LogEvent where
  level := .warn
  target := .handler
  message := match frontend with
    | http => "Sniff http failed"
    | https => "Sniff https failed"
    | socks5 => "Parse socks5 target failed"
  fields := [("error", .shown error.message)]

/-- The event that a relay is over. -/
def relayFinished (target : HostPort) (tally : Tally) : LogEvent where
  level := .debug
  target := .router
  message := "Relay finished"
  fields := [("host", .quoted target.host), ("port", .number target.port.toNat),
    ("up", .number tally.up), ("down", .number tally.down),
    ("idle_timeout", .flag !tally.completed)]

/-- The event that a connection was served. -/
def served (frontend : Frontend) (target : HostPort) : LogEvent where
  level := .debug
  target := .handler
  message := "Serve " ++ frontend.name
  fields := [("host", .shown target.host)]

/-! ## Finding the destination in time -/

/-- The state of a connection once its first phase is over. -/
structure Sniffed where
  target : Except ProxyError HostPort
  peek : Peek
  time : Nat
  client : Script
  log : List LogEvent

/-- Finds the destination of a scripted client before a deadline. -/
def await (frontend : Frontend) (acceptor : Tls.Acceptor) (timeout : Nat) (client : Script) :
    Sniffed :=
  match (frontend.sniff acceptor).run (some timeout) 0 client with
  | .finished (.ok target, peek) time client log =>
    ⟨.ok target, peek, time, client, log ++ [.sniffed frontend.name target]⟩
  | .finished (.error error, peek) time client log =>
    ⟨.error error, peek, time, client, log ++ [frontend.sniffFailed error]⟩
  | .waiting client log =>
    let error := ProxyError.sniffParse (.timedOut frontend.phase)
    ⟨.error error, .transparent, timeout, client, log ++ [frontend.sniffFailed error]⟩

/-! ## Serving -/

/-- What serving a connection leaves to others: who reads client hellos, and whose turn is first at
each moment of a relay. -/
structure Environment where
  acceptor : Tls.Acceptor
  turns : Turns

/-- How connections are relayed. -/
structure RelayLimits where
  /-- The capacity of the buffer of each direction. -/
  bufferSize : Nat
  /-- The idle timeout in milliseconds. -/
  idleTimeout : Nat
  deriving DecidableEq, Repr

/-- What became of a connection. -/
structure Service where
  /-- Nothing if the connection is never over. -/
  result : Option (Except ProxyError Unit)
  requests : List (Via × DialRequest)
  clientReceived : Bytes
  outboundReceived : Bytes
  finishedAt : Nat
  log : List LogEvent

/-- The request that the router gets for a destination. -/
def dialRequest (target : HostPort) : DialRequest :=
  ⟨"tcp", target⟩

/-- A connection whose destination is not found. -/
def Sniffed.refused (sniffed : Sniffed) (error : ProxyError) : Service where
  result := some (.error error)
  requests := []
  clientReceived := sniffed.client.received
  outboundReceived := []
  finishedAt := sniffed.time
  log := sniffed.log

/-- A connection whose destination is not dialed: it is over when the dialer has failed, if it ever
does. -/
def Sniffed.undialed (sniffed : Sniffed) (result : Option (Except ProxyError Unit))
    (dialed : Router.Dialed Script) : Service where
  result := result
  requests := dialed.requests
  clientReceived := sniffed.client.received
  outboundReceived := []
  finishedAt := sniffed.time + dialed.dialing.took
  log := sniffed.log ++ dialed.log

/-- Relays a sniffed connection to an outbound stream, once this has been opened. The clock of the
outbound stream is that of the connection. -/
def relay (frontend : Frontend) (turns : Turns) (limits : RelayLimits) (sniffed : Sniffed)
    (target : HostPort) (outbound : Script) (dialed : Router.Dialed Script) : Service :=
  let report := Relay.run turns limits.bufferSize limits.idleTimeout
    (sniffed.time + dialed.dialing.took) sniffed.peek sniffed.client outbound
  let log := sniffed.log ++ dialed.log
  let (result, log) := match report.result with
    | .ok tally => (.ok (), log ++ [relayFinished target tally, frontend.served target])
    | .error error => (.error (.io error), log)
  { result := some result, requests := dialed.requests,
    clientReceived := sniffed.client.received ++ report.clientReceived.flatten,
    outboundReceived := outbound.received ++ report.outboundReceived.flatten,
    finishedAt := report.finishedAt, log }

/-- Goes on with a connection whose destination was found and dialed. -/
def proceed (frontend : Frontend) (turns : Turns) (limits : RelayLimits) (sniffed : Sniffed)
    (target : HostPort) (dialed : Router.Dialed Script) : Service :=
  match dialed.dialing with
  | .opened outbound _ _ => frontend.relay turns limits sniffed target outbound dialed
  | .failed error _ _ _ => sniffed.undialed (some (.error error)) dialed
  | .pending => sniffed.undialed none dialed

/-- Serves a scripted client. -/
def serve (frontend : Frontend) (env : Environment) (router : Router) (dialers : Dialers Script)
    (limits : RelayLimits) (timeout : Nat) (client : Script) : Service :=
  let sniffed := frontend.await env.acceptor timeout client
  match sniffed.target with
  | .error error => sniffed.refused error
  | .ok target =>
    frontend.proceed env.turns limits sniffed target (router.dial dialers (dialRequest target))

end Frontend

end SniffProxy
