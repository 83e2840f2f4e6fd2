import SniffProxy.Listener.Events
import SniffProxy.Listener.Responder
import SniffProxy.Listener.Slots

/-!
# Listeners

A listener accepts connections, sets their socket options, has a front-end find the destination in
time, and hands them on; here to a responder. Several connections live side by side, and each goes
on as soon as it can. Time passes only while a client waits.

* `Listener.connect`, `send`, `receive`, `finish`, `drop`, `cancel`, `failAccept` — what clients, the
  program and the system do.
* `Listener.settle` — accepting and admitting as far as the slots allow.
-/

namespace SniffProxy

/-! ## Socket options -/

/-- The options of an accepted socket. -/
structure SocketOptions where
  noDelay : Bool := false
  /-- The seconds before the first probe and between probes that keep a connection alive. -/
  keepAlive : Option Nat := none
  deriving DecidableEq, Repr

/-- The seconds between probes of an accepted socket. -/
def keepAliveSeconds : Nat := 15

/-- Which options the system refuses to set, and why. -/
structure OptionFaults where
  noDelay : Option IoError := none
  keepAlive : Option IoError := none
  deriving DecidableEq, Repr

namespace SocketOptions

/-- Sets the options of a listener. The first one that is refused ends this. -/
def tuned (options : SocketOptions) (noDelay : Bool) (faults : OptionFaults) :
    SocketOptions × Option IoError :=
  match if noDelay then faults.noDelay else none with
  | some error => (options, some error)
  | none =>
    let options := { options with noDelay := options.noDelay || noDelay }
    match faults.keepAlive with
    | some error => (options, some error)
    | none => ({ options with keepAlive := some keepAliveSeconds }, none)

end SocketOptions

/-! ## Connections -/

/-- How far a connection has come. -/
inductive Stage where
  /-- Not yet in service. -/
  | outside
  /-- Its destination is looked for until the deadline. -/
  | sniffing (deadline : Nat) (rest : Session (Except ProxyError HostPort × Peek))
  | routed (target : HostPort)
  | over

/-- A connection of a listener. -/
structure Connection where
  stage : Stage := .outside
  live : Live := {}
  /-- The options of its socket, once it is accepted. -/
  options : Option SocketOptions := none
  faults : OptionFaults := {}

/-- Whether the listener's side of a connection is closed. -/
def Connection.isOver (conn : Connection) : Bool :=
  match conn.stage with
  | .over => true
  | _ => false

/-- How a listener treats its connections. -/
structure ListenerSettings where
  frontend : Frontend
  acceptor : Tls.Acceptor
  responder : Responder
  /-- The time in milliseconds in which a destination must be found. -/
  requestTimeout : Nat
  tcpNoDelay : Bool

/-- A listener with all the connections that it ever had, in the order of their arrival. -/
structure Listener where
  settings : ListenerSettings
  slots : Slots Nat
  connections : List Connection := []
  now : Nat := 0
  log : List LogEvent := []

namespace Listener

/-- A listener that has just started. -/
def start (address : BoundAddress) (settings : ListenerSettings) (limit : Nat) : Listener :=
  { settings, slots := { limit }, log := [listenerStarted address settings.frontend limit] }

/-- Adds events to the log. -/
def report (listener : Listener) (events : List LogEvent) : Listener :=
  { listener with log := listener.log ++ events }

/-- A connection by its number. -/
def conn (listener : Listener) (i : Nat) : Connection :=
  listener.connections.getD i {}

/-- Changes a connection. -/
def modify (listener : Listener) (i : Nat) (change : Connection → Connection) : Listener :=
  { listener with connections := listener.connections.modify i change }

/-! ## Service -/

/-- Ends the service of a connection. -/
def conclude (listener : Listener) (i : Nat) (result : Except ProxyError Unit) : Listener :=
  let listener := listener.modify i fun conn => { conn with stage := .over }
  { listener.report (connectionOver listener.settings.frontend result) with
    slots := listener.slots.finish i }

/-- Answers a routed connection as far as possible. -/
def answer (listener : Listener) (i : Nat) (target : HostPort) : Listener :=
  let live := listener.settings.responder.answer target (listener.conn i).live
  let listener := listener.modify i fun conn => { conn with live }
  if live.ended then
    (listener.report [listener.settings.frontend.served target]).conclude i (.ok ())
  else listener

/-- Gives up a connection without a destination. -/
def giveUp (listener : Listener) (i : Nat) (error : ProxyError) : Listener :=
  (listener.report [listener.settings.frontend.sniffFailed error]).conclude i (.error error)

/-- Hands a connection on to its destination. What the peek holds comes first. -/
def route (listener : Listener) (i : Nat) (target : HostPort) (peek : Peek) (live : Live) :
    Listener :=
  let listener := listener.report [.sniffed listener.settings.frontend.name target]
  let live := { live with inbox := peek.buffer ++ live.inbox }
  let live := listener.settings.responder.start target live
  let listener := listener.modify i fun conn => { conn with stage := .routed target, live }
  listener.answer i target

/-- A connection goes on as far as it can. -/
def progress (listener : Listener) (i : Nat) : Listener :=
  match (listener.conn i).stage with
  | .outside | .over => listener
  | .routed target => listener.answer i target
  | .sniffing deadline rest =>
    match rest.advance (listener.conn i).live with
    | .blocked rest live log =>
      (listener.report log).modify i fun conn =>
        { conn with stage := .sniffing deadline rest, live }
    | .done (.ok target, peek) live log => (listener.report log).route i target peek live
    | .done (.error error, _) live log =>
      ((listener.report log).modify i fun conn => { conn with live }).giveUp i error

/-- A connection enters service: its socket is tuned, and its destination is to be looked for. An option
that is refused is reported and nothing more. -/
def letIn (listener : Listener) (i : Nat) : Listener :=
  let conn := listener.conn i
  let (options, fault) :=
    (conn.options.getD {}).tuned listener.settings.tcpNoDelay conn.faults
  let deadline := listener.now + listener.settings.requestTimeout
  let rest := listener.settings.frontend.sniff listener.settings.acceptor
  (listener.report (fault.toList.map tuneFailed)).modify i fun conn =>
    { conn with stage := .sniffing deadline rest, options := some options }

/-- A connection enters service and goes on as far as it can. -/
def enter (listener : Listener) (i : Nat) : Listener :=
  (listener.letIn i).progress i

/-- Accepts a connection. -/
def accept (listener : Listener) (i : Nat) : Listener :=
  let listener := listener.modify i fun conn => { conn with options := some {} }
  let listener : Listener :=
    { listener.report [connectionNew] with slots := listener.slots.accept }
  if i ∈ listener.slots.serving then listener.enter i else listener

/-- The system fails to hand over a connection. The listener goes on accepting. -/
def failAccept (listener : Listener) (error : IoError) : Listener :=
  if listener.slots.running = true ∧ listener.slots.waiting = none then
    listener.report [acceptFailed listener.settings.frontend error]
  else listener

/-- Accepts and admits as long as the slots allow. Every connection is accepted and admitted at most
once, so twice as many rounds as connections are enough. -/
def settleIn : (fuel : Nat) → Listener → Listener
  | 0, listener => listener
  | fuel + 1, listener =>
    match listener.slots.ready?, listener.slots.next? with
    | some i, _ => settleIn fuel (enter { listener with slots := listener.slots.promote } i)
    | none, some i => settleIn fuel (listener.accept i)
    | none, none => listener

/-- Accepts and admits as long as the slots allow. -/
def settle (listener : Listener) : Listener :=
  settleIn (2 * listener.connections.length) listener

/-! ## Time -/

/-- The deadline of a connection, if it has one. -/
def deadline? (conn : Connection) : Option Nat :=
  match conn.stage with
  | .sniffing deadline _ => some deadline
  | _ => none

/-- The next deadline. -/
def nextDeadline (listener : Listener) : Option Nat :=
  (listener.connections.filterMap deadline?).min?

/-- Gives up a connection whose deadline has come. -/
def expire (listener : Listener) (i : Nat) : Listener :=
  match deadline? (listener.conn i) with
  | some deadline =>
    if deadline ≤ listener.now then
      listener.giveUp i (.sniffParse (.timedOut listener.settings.frontend.phase))
    else listener
  | none => listener

/-- Time passes until a moment that is no later than the next deadline. -/
def passUntil (listener : Listener) (time : Nat) : Listener :=
  settle ((List.range listener.connections.length).foldl expire { listener with now := time })

/-- Lets time pass from deadline to deadline until a condition holds; nothing if it never does.
Every deadline ends a connection, so as many deadlines as connections are enough. -/
def waitIn (holds : Listener → Bool) : (fuel : Nat) → Listener → Option Listener
  | 0, listener => if holds listener then some listener else none
  | fuel + 1, listener =>
    if holds listener then some listener
    else
      match listener.nextDeadline with
      | some time => waitIn holds fuel (listener.passUntil time)
      | none => none

/-- Lets time pass until a condition holds. -/
def waitFor (listener : Listener) (holds : Listener → Bool) : Option Listener :=
  waitIn holds listener.connections.length listener

/-! ## What clients do -/

/-- Opens a connection, which gets the next number, if the listener is still there. The system may
refuse to set the options of its socket. -/
def connect (listener : Listener) (faults : OptionFaults := {}) : Option (Listener × Nat) :=
  if listener.slots.running then
    let i := listener.connections.length
    let arrived : Listener :=
      { listener with
        connections := listener.connections ++ [({ faults } : Connection)]
        slots := listener.slots.arrive i }
    some (arrived.settle, i)
  else none

/-- Changes the stream of a connection, and lets everything go on. -/
def touch (listener : Listener) (i : Nat) (change : Live → Live) : Listener :=
  ((listener.modify i fun conn => { conn with live := change conn.live }).progress i).settle

/-- Sends bytes on a connection; nothing if it is closed. -/
def send (listener : Listener) (i : Nat) (bytes : Bytes) : Option Listener :=
  if (listener.conn i).isOver then none else some (listener.touch i (·.receive bytes))

/-- Receives exactly so many bytes, or learns that the connection ended before. Nothing if that
never happens. -/
def receive (listener : Listener) (i count : Nat) : Option (Listener × Option Bytes) :=
  let enough := fun (l : Listener) => decide (count ≤ (l.conn i).live.outbox.length)
  match listener.waitFor fun l => enough l || (l.conn i).isOver with
  | none => none
  | some listener =>
    if enough listener then
      let outbox := (listener.conn i).live.outbox
      some (listener.modify i fun conn =>
        { conn with live := { conn.live with outbox := outbox.drop count } },
        some (outbox.take count))
    else some (listener, none)

/-- How long silence is listened to, in milliseconds. -/
def silenceTime : Nat := 60

/-- Whether nothing comes on a connection for a while. -/
def isSilent (listener : Listener) (i : Nat) : Listener × Bool :=
  let speaks := fun (l : Listener) => !(l.conn i).live.outbox.isEmpty || (l.conn i).isOver
  let limit := listener.now + silenceTime
  let awaited := listener.waitFor fun l =>
    speaks l ||
      match l.nextDeadline with
      | some time => decide (limit < time)
      | none => true
  match awaited with
  | some l => if speaks l then (l, false) else ({ l with now := limit }, true)
  | none => ({ listener with now := limit }, true)

/-- Ends the sending side of a connection and reads to the end. Nothing if that never comes. -/
def finish (listener : Listener) (i : Nat) : Option (Listener × Bytes) :=
  match (listener.touch i Live.close).waitFor fun l => (l.conn i).isOver with
  | none => none
  | some listener =>
    some (listener.modify i fun conn => { conn with live := { conn.live with outbox := [] } },
      (listener.conn i).live.outbox)

/-- Closes a connection. -/
def drop (listener : Listener) (i : Nat) : Listener :=
  listener.touch i fun live => { live.close with outbox := [] }

/-- Opens a connection, sends bytes, ends the sending side and reads to the end. -/
def exchange (listener : Listener) (bytes : Bytes) : Option (Listener × Bytes) :=
  match listener.connect with
  | none => none
  | some (listener, i) => ((listener.send i bytes).getD listener).finish i

/-- The options of the accepted sockets, in the order of acceptance. -/
def accepted (listener : Listener) : List SocketOptions :=
  listener.connections.filterMap Connection.options

/-! ## The end -/

/-- Closes a connection that has not entered service. -/
def Connection.shut (conn : Connection) : Connection :=
  match conn.stage with
  | .outside => { conn with stage := .over }
  | _ => conn

/-- Stops the listener. Connections in service go on. -/
def cancel (listener : Listener) : Listener :=
  if listener.slots.running then
    { listener.report [listenerStopped listener.settings.frontend] with
      slots := listener.slots.cancel
      connections := listener.connections.map Connection.shut }
  else listener

end Listener

end SniffProxy
