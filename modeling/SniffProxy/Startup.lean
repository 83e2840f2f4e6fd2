import SniffProxy.Config.Basic
import SniffProxy.Frontend
import SniffProxy.Net.System

/-!
# Startup

Before anyone is served, every enabled front-end gets its listener: HTTP, HTTPS, SOCKS5, in this
order. The first one that cannot be bound is the failure, and then all are given back.

* `startSteps` — what a configuration asks for.
* `Startup.carryOut` — binding one listener after the other.
* `Startup.ofConfig` — the listeners of a configuration, or none at all.
-/

namespace SniffProxy

/-- A listener that is bound, and the front-end behind it. -/
structure Binding where
  frontend : Frontend
  address : BoundAddress
  deriving DecidableEq, Repr

/-- Why the listeners are not there. -/
inductive StartFault where
  | listen (fault : ListenFault)
  | nothingEnabled
  deriving DecidableEq, Repr

/-- What failed, in a few words. -/
def StartFault.summary : StartFault → String
  | listen fault => fault.summary
  | nothingEnabled => "all listeners are disabled"

/-- What failed, with its cause. -/
def StartFault.message : StartFault → String
  | listen fault => fault.message
  | nothingEnabled => "all listeners are disabled"

/-! ## What is to be done -/

/-- One step of starting. -/
inductive StartStep where
  | note (event : LogEvent)
  | listen (frontend : Frontend) (address : String)
  deriving DecidableEq, Repr

/-- The event that something is not there because it is disabled. -/
def disabledEvent (what : String) : LogEvent where
  level := .info
  target := .server
  message := what ++ " disabled"

/-- The steps for the HTTP and HTTPS front-ends. -/
def SnifferSettings.startSteps (sniffers : SnifferSettings) : List StartStep :=
  if sniffers.disabled then [.note (disabledEvent "HTTP/HTTPS sniffing")]
  else [.listen .http (sniffers.listenAddress 80), .listen .https (sniffers.listenAddress 443)]

/-- The steps for the SOCKS5 front-end. -/
def SocksSettings.startSteps (socks : SocksSettings) : List StartStep :=
  if socks.disabled then [.note (disabledEvent "SOCKS5 proxy")]
  else [.listen .socks5 socks.listenAddress]

/-- All steps, in order. -/
def Config.startSteps (config : Config) : List StartStep :=
  config.sniffers.startSteps ++ config.socks.startSteps

/-! ## Doing it -/

/-- What starting led to, and the state of the system afterwards. -/
structure Startup (μ : Type) where
  result : Except StartFault (List Binding)
  state : μ
  log : List LogEvent

namespace Startup

variable {μ : Type}

/-- The same with an event in front of its log. -/
def logged (event : LogEvent) (startup : Startup μ) : Startup μ :=
  { startup with log := event :: startup.log }

/-- Closes bound listeners. -/
def giveBack (system : OperatingSystem μ) (state : μ) (bound : List Binding) : μ :=
  bound.foldl (fun state binding => system.close state binding.address) state

/-- Carries out steps, some listeners being bound already. -/
def carryOut (system : OperatingSystem μ) : List StartStep → μ → (bound : List Binding) → Startup μ
  | [], state, bound => ⟨.ok bound, state, []⟩
  | .note event :: rest, state, bound => (carryOut system rest state bound).logged event
  | .listen frontend text :: rest, state, bound =>
    match system.listenOn state text with
    | (.error fault, state) => ⟨.error (.listen fault), giveBack system state bound, []⟩
    | (.ok address, state) => carryOut system rest state (bound ++ [⟨frontend, address⟩])

/-- Without a listener, starting is a failure. -/
def requireSome (startup : Startup μ) : Startup μ :=
  match startup.result with
  | .ok [] => { startup with result := .error .nothingEnabled }
  | _ => startup

/-- Binds the listeners of a configuration. -/
def ofConfig (system : OperatingSystem μ) (state : μ) (config : Config) : Startup μ :=
  (carryOut system config.startSteps state []).requireSome

end Startup

end SniffProxy
