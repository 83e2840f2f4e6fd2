import SniffProxy.Config.Load
import SniffProxy.Dialer
import SniffProxy.Listener.Events
import SniffProxy.Startup

/-!
# Launching the program

What happens before the first client is served: the configuration is loaded, the dialer of the
remote made, the rules compiled, the listeners bound. Any of these may fail, and then the program
ends.

* `Program.launch` — the program when it is up, or why it ends, if it ever comes that far.
* `Failure.message?`, `Failure.status` — how it ends.
-/

namespace SniffProxy

/-! ## Failures -/

/-- Why the program ends before it is up. -/
inductive Failure where
  | refused (refusal : Refusal)
  | configuration (error : LoadError)
  | remote (error : ProxyError)
  | rules (error : ProxyError)
  | listeners (fault : StartFault)
  deriving DecidableEq, Repr

namespace Failure

/-- What is said about a failure; the command line has texts of its own. -/
def message? : Failure → Option String
  | refused _ => none
  | configuration error => some error.message
  | remote error => some error.message
  | rules error => some error.message
  | listeners fault => some fault.summary

/-- The exit status. -/
def status : Failure → Nat
  | refused .helpRequested => 0
  | refused .versionRequested => 0
  | refused _ => 2
  | _ => 1

end Failure

/-! ## Events -/

/-- The event that the configuration is loaded. -/
def starting (remote : RemoteSettings) : LogEvent where
  level := .info
  target := .main
  message := "Starting sower"
  fields := [("remote_type", .shown remote.kind.name), ("remote_addr", .shown remote.address)]

/-- An event of the program as a whole. -/
def announcement (message : String) : LogEvent where
  level := .info
  target := .main
  message := message

/-- What a mark stands for. -/
def Route.meaning : Route → String
  | block => "blockRule matched"
  | direct => "directRule matched"
  | proxy => "proxyRule matched"
  | unmatched => "no rule matched, proxied"

/-- The events that explain the marks of routes. -/
def legend : List LogEvent :=
  [Route.block, .direct, .proxy, .unmatched].map fun route =>
    announcement (route.marker ++ " : " ++ route.meaning)

/-! ## Launching -/

/-- The program when it is up. -/
structure Program where
  config : Config
  dialer : ProxyDialer
  router : Router
  bindings : List Binding

/-- What launching led to. -/
structure Launch where
  result : Except Failure Program
  log : List LogEvent

namespace Program

/-- A failure without further events. -/
def fail (failure : Failure) : Launch := ⟨.error failure, []⟩

/-- A launch after some events. -/
def after (log : List LogEvent) (launch : Launch) : Launch :=
  { launch with log := log ++ launch.log }

/-- The event that a listener of the program has started. -/
def startedEvent (config : Config) (binding : Binding) : LogEvent :=
  listenerStarted binding.address binding.frontend config.connection.maxConnections

/-! What the program is launched on: a system, whose state is `μ`, a network, and some files. -/

section

variable {μ σ : Type} (system : OperatingSystem μ) (state : μ) (network : Network σ)
  (files : FileTree)

/-- Binds the listeners and starts them. -/
def launchListeners (config : Config) (dialer : ProxyDialer) (router : Router) : Launch :=
  let startup := Startup.ofConfig system state config
  match startup.result with
  | .error fault => ⟨.error (.listeners fault), startup.log⟩
  | .ok bindings =>
    ⟨.ok ⟨config, dialer, router, bindings⟩,
      startup.log ++ bindings.map (startedEvent config)⟩

/-- Compiles the rules and goes on. -/
def launchRouter (config : Config) (dialer : ProxyDialer) : Launch :=
  match Router.ofConfig files config.router with
  | .error error => fail (.rules error)
  | .ok router =>
    after (router.loaded :: legend) (launchListeners system state config dialer router)

/-- Makes the dialer and goes on. Nothing if the dialer is never made. -/
def launchDialer (config : Config) : Option Launch :=
  (ProxyDialer.ofRemote network config.connection.connectTimeout.millis config.remote).map
    fun made =>
      match made with
      | .error error => fail (.remote error)
      | .ok (dialer, log) => after log (launchRouter system state files config dialer)

/-- Launches the program. -/
def launch (a : Arguments) : Option Launch :=
  match Config.load files a with
  | .error error => some (fail (.configuration error))
  | .ok config =>
    (launchDialer system state network files config).map (after [starting config.remote])

end

end Program

end SniffProxy
