import SniffProxy.Dialing
import SniffProxy.Rule.Source

/-!
# Routing

A router holds three rule sets. Blocking rules win over direct ones, direct ones over the rest; a
host that no rule names goes through the remote, as one does that a proxy rule names.

* `Router.decide` — the route of a host.
* `Router.dial` — the connection for a target, through at most one of the two dialers.
-/

namespace SniffProxy

/-- The rule lists of a configuration. -/
structure RouterConfig where
  block : RuleList := {}
  direct : RuleList := {}
  proxy : RuleList := {}
  deriving DecidableEq, Repr

/-- Which way a destination goes. -/
inductive Route where
  | block
  | direct
  | proxy
  /-- No rule names the host; it goes through the remote. -/
  | unmatched
  deriving DecidableEq, Repr

/-- The mark of a route in the log. -/
def Route.marker : Route → String
  | block => "-X-"
  | direct => "---"
  | proxy => ">>>"
  | unmatched => "..."

/-- The compiled rule sets. -/
structure Router where
  block : RuleSet
  direct : RuleSet
  proxy : RuleSet
  deriving DecidableEq, Repr

/-- Who opens a connection: the remote's dialer or the direct one. -/
inductive Via where
  | remote
  | direct
  deriving DecidableEq, Repr

/-- A request to open a connection. -/
structure DialRequest where
  network : String
  target : HostPort
  deriving DecidableEq, Repr

/-- The two dialers: what each makes of a request. -/
abbrev Dialers (σ : Type) := Via → DialRequest → Dialing σ

namespace Router

/-- Compiles the rule lists; the first file that cannot be read, in the order block, direct, proxy,
is the failure. -/
def ofConfig (tree : FileTree) (config : RouterConfig) : Except ProxyError Router := do
  let block ← config.block.compile tree
  let direct ← config.direct.compile tree
  let proxy ← config.proxy.compile tree
  return ⟨block, direct, proxy⟩

/-- The event that the rules are loaded. -/
def loaded (router : Router) : LogEvent where
  level := .info
  target := .router
  message := "Loaded rules"
  fields := [("block_rules", .number router.block.size),
    ("direct_rules", .number router.direct.size), ("proxy_rules", .number router.proxy.size)]

/-- The route of a host. -/
def decide (router : Router) (host : String) : Route :=
  if router.block.covers host then .block
  else if router.direct.covers host then .direct
  else if router.proxy.covers host then .proxy
  else .unmatched

/-- The dialer that a route leads to. -/
def viaOf : Route → Option Via
  | .block => none
  | .direct => some .direct
  | .proxy => some .remote
  | .unmatched => some .remote

/-- What routing a target led to. -/
structure Dialed (σ : Type) where
  dialing : Dialing σ
  /-- The dialers that were asked, with the requests. -/
  requests : List (Via × DialRequest)
  log : List LogEvent

/-- The same with other streams. -/
def Dialed.map {σ τ : Type} (f : σ → τ) (dialed : Dialed σ) : Dialed τ :=
  { dialed with dialing := dialed.dialing.map f }

/-- Routes a target and asks the dialer of its route, if it has one. -/
def dial {σ : Type} (router : Router) (dialers : Dialers σ) (request : DialRequest) : Dialed σ :=
  let route := router.decide request.target.host
  let routed := LogEvent.routed route.marker request.target
  match viaOf route with
  | none => ⟨.failed (.blocked request.target.host) none 0 [], [], [routed]⟩
  | some via =>
    let dialing := dialers via request
    ⟨dialing, [(via, request)], routed :: dialing.log⟩

end Router

end SniffProxy
