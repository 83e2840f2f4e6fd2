import SniffProxy.Log.Filter
import SniffProxy.Peer
import SniffProxy.Program.Launch
import SniffProxy.Tls.Reader

/-!
# Running the program

A whole run on a machine with some peers: the program is launched, clients come one after another,
a signal ends it.

* `Program.visit` — one client.
* `Program.run` — a run from the command line to the exit status.
-/

namespace SniffProxy

/-! ## Clients -/

/-- Someone who connects to a port, sends bytes and reads to the end. -/
structure Client where
  port : Port
  bytes : Bytes
  deriving DecidableEq, Repr

/-- The stream of a client, which never ends its sending side. -/
def Client.script (client : Client) : Script where
  events := [⟨0, .data client.bytes⟩]
  afterwards := .silent

/-- What a client has sent and no front-end has used up. -/
def Frontend.Sniffed.remaining (sniffed : Frontend.Sniffed) : Bytes :=
  sniffed.peek.buffer ++ sniffed.client.unread

namespace Program

/-- The two dialers of the program. -/
def dialers (program : Program) (network : Network Peer) : Dialers Peer
  | .remote, request => program.dialer.dial network request.target
  | .direct, request =>
    dialDirect network program.config.connection.connectTimeout.millis request.target

/-- How the program relays. -/
def limits (program : Program) : Frontend.RelayLimits where
  bufferSize := program.config.connection.bufferSize
  idleTimeout := program.config.connection.idleTimeout.millis

/-- Client hellos are read by the reader of this library. Of what happens at one moment of a relay,
the client's part comes first. -/
def environment : Frontend.Environment where
  acceptor := Tls.reader
  turns := fun _ => .upload

/-- Serves a connection: what became of it and of the peers. -/
def serve (program : Program) (peers : List Peer) (frontend : Frontend) (client : Client) :
    Frontend.Service × List Peer :=
  let timeout := program.config.connection.requestTimeout.millis
  let sniffed := frontend.await environment.acceptor timeout client.script
  match sniffed.target with
  | .error error => (sniffed.refused error, peers)
  | .ok target =>
    let dialed := program.router.dial (program.dialers (Peer.network peers))
      (Frontend.dialRequest target)
    let script := fun (peer : Peer) => peer.partner.toScript sniffed.remaining
    let service := frontend.proceed environment.turns program.limits sniffed target
      (dialed.map script)
    match dialed.dialing.stream? with
    | some peer => (service, Peer.update peers (peer.conclude service.outboundReceived))
    | none => (service, peers)

/-- What happened when a client came. -/
structure Visit where
  /-- Nothing where nobody listens. -/
  reply : Option Bytes
  peers : List Peer
  log : List LogEvent

/-- The front-end that listens on a port. -/
def frontendAt (program : Program) (port : Port) : Option Frontend :=
  (program.bindings.find? fun binding => binding.address.address.port = port).map Binding.frontend

/-- A client comes. Nothing if its connection is never over. -/
def visit (program : Program) (peers : List Peer) (client : Client) : Option Visit :=
  match program.frontendAt client.port with
  | none => some ⟨none, peers, []⟩
  | some frontend =>
    let (service, peers) := program.serve peers frontend client
    service.result.map fun result =>
      ⟨some service.clientReceived, peers,
        connectionNew :: service.log ++ connectionOver frontend result⟩

/-- Clients come one after another: their replies, the peers after them and the events. -/
def visits (program : Program) :
    List Client → List Peer → Option (List (Option Bytes) × List Peer × List LogEvent)
  | [], peers => some ([], peers, [])
  | client :: rest, peers =>
    match program.visit peers client with
    | none => none
    | some visit =>
      (program.visits rest visit.peers).map fun (replies, peers, log) =>
        (visit.reply :: replies, peers, visit.log ++ log)

end Program

/-! ## Runs -/

/-- What tells the program to end. -/
inductive Signal where
  | interrupt
  | terminate
  deriving DecidableEq, Repr

/-- The name of a signal. -/
def Signal.name : Signal → String
  | interrupt => "SIGINT"
  | terminate => "SIGTERM"

/-- What the program is started with. -/
structure Invocation where
  arguments : List String
  environment : List (String × String)
  files : FileTree

/-- What happens around the program. -/
structure Surroundings where
  peers : List Peer := []
  clients : List Client := []
  signal : Signal := .terminate

/-- What is seen of a run. -/
structure Run where
  status : Nat
  error : Option String
  /-- The events that are shown. -/
  log : List LogEvent
  replies : List (Option Bytes)
  /-- What each peer has heard. -/
  received : List Bytes

/-- The run with only those events that a filter shows. -/
def Run.filtered (filter : LogFilter) (run : Run) : Run :=
  { run with log := run.log.filter filter.shows }

namespace Program

/-- The events at the end of a run. -/
def endEvents (program : Program) (signal : Signal) : List LogEvent :=
  announcement (signal.name ++ " received, shutting down...") ::
    program.bindings.map (fun binding => listenerStopped binding.frontend) ++
    [announcement "Shutdown complete"]

/-- What each peer has heard. -/
def heard (peers : List Peer) : List Bytes :=
  peers.map fun peer => peer.partner.heard

/-- A run that ends with a failure. -/
def failedRun (failure : Failure) (peers : List Peer) (log : List LogEvent) : Run where
  status := failure.status
  error := failure.message?
  log := log
  replies := []
  received := heard peers

/-- The run of a program that is up. Nothing if it never ends. -/
def session (program : Program) (around : Surroundings) (log : List LogEvent) : Option Run :=
  (program.visits around.clients around.peers).map fun (replies, peers, events) =>
    { status := 0, error := none, log := log ++ events ++ program.endEvents around.signal,
      replies, received := heard peers }

/-- A run with settings that were understood. -/
def runWith (a : Arguments) (files : FileTree) (around : Surroundings) : Option Run :=
  let machine : Machine := ⟨around.peers.map Peer.port⟩
  match launch Machine.system machine (Peer.network around.peers) files a with
  | none => none
  | some ⟨.error failure, log⟩ => some (failedRun failure around.peers log)
  | some ⟨.ok program, log⟩ => program.session around log

/-- A whole run. Nothing if it never ends. -/
def run (invocation : Invocation) (around : Surroundings) : Option Run :=
  match Arguments.read invocation.arguments invocation.environment with
  | .error refusal => some (failedRun (.refused refusal) around.peers [])
  | .ok a =>
    let filter := LogFilter.ofSettings (invocation.environment.lookup "RUST_LOG") a.logMode
    (runWith a invocation.files around).map (Run.filtered filter)

end Program

end SniffProxy
