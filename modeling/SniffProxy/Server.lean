import SniffProxy.Listener.Basic
import SniffProxy.Startup

/-!
# Servers

A server is the running listeners of a configuration. Clients come to the port of one of them.

* `Server.start` — all enabled listeners run, or none.
* `Server.exchange` — a client sends, ends its sending side and reads to the end.
* `Server.cancel` — all listeners stop.
-/

namespace SniffProxy

/-- Running listeners. -/
structure Server where
  /-- The listeners with their addresses, in the order in which they were started. -/
  listeners : List (BoundAddress × Listener)
  log : List LogEvent
  /-- The options of the accepted sockets, in the order of acceptance. -/
  accepted : List SocketOptions := []

/-- What the attempt to start a server led to, and the state of the system afterwards. -/
structure ServerStart (μ : Type) where
  result : Except StartFault Server
  state : μ
  log : List LogEvent

/-- What a server has its connections handled by. -/
structure Handling where
  acceptor : Tls.Acceptor
  responder : Responder

namespace Server

/-- The settings of a listener in a configuration. -/
def settings (connection : ConnectionSettings) (handling : Handling) (frontend : Frontend) :
    ListenerSettings where
  frontend := frontend
  acceptor := handling.acceptor
  responder := handling.responder
  requestTimeout := connection.requestTimeout.millis
  tcpNoDelay := connection.tcpNoDelay

/-- Starts a bound listener. -/
def listen (connection : ConnectionSettings) (handling : Handling) (binding : Binding) : Listener :=
  .start binding.address (settings connection handling binding.frontend) connection.maxConnections

/-- Starts all bound listeners, after what was reported before. -/
def ofBindings (connection : ConnectionSettings) (handling : Handling) (log : List LogEvent)
    (bindings : List Binding) : Server :=
  let listeners := bindings.map fun binding =>
    (binding.address, listen connection handling binding)
  { listeners, log := log ++ listeners.flatMap fun entry => entry.2.log }

/-- Starts the server of a configuration. Nothing runs unless everything enabled is bound. -/
def start {μ : Type} (system : OperatingSystem μ) (state : μ) (config : Config)
    (handling : Handling) : ServerStart μ :=
  let startup := Startup.ofConfig system state config
  match startup.result with
  | .error fault => ⟨.error fault, startup.state, startup.log⟩
  | .ok bindings =>
    let server := ofBindings config.connection handling startup.log bindings
    ⟨.ok server, startup.state, server.log⟩

/-- Takes over what a listener has become, with what it reported and accepted meanwhile. -/
def update (server : Server) (address : BoundAddress) (before after : Listener) : Server where
  listeners := server.listeners.map fun entry =>
    if entry.1 = address then (entry.1, after) else entry
  log := server.log ++ after.log.drop before.log.length
  accepted := server.accepted ++ after.accepted.drop before.accepted.length

/-- A client of a port sends bytes, ends its sending side and reads to the end. It gets no bytes at
all where nobody listens. Nothing if it never comes to the end. -/
def exchange (server : Server) (port : Port) (bytes : Bytes) : Option (Server × Option Bytes) :=
  match server.listeners.find? fun entry => entry.1.address.port = port with
  | none => some (server, none)
  | some (address, listener) =>
    match listener.exchange bytes with
    | none => none
    | some (after, reply) => some (server.update address listener after, some reply)

/-- Stops all listeners. -/
def cancel (server : Server) : Server :=
  let stopped := server.listeners.map fun entry => (entry.1, entry.2.cancel)
  { server with
    listeners := stopped
    log := server.log ++ stopped.flatMap fun entry => [listenerStopped entry.2.settings.frontend] }

end Server

end SniffProxy
