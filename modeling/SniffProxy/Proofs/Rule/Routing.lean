import SniffProxy.Router
import SniffProxy.Proofs.Rule.Meaning

/-!
# What a router does with its targets

The route of a host follows from the texts of the rules: a blocking one wins over a direct one, a
direct one over the rest. A router asks the dialer of the route once or, for a blocked host, none,
and it remembers nothing, so that a target is treated alike whatever came before it.

* `RouterConfig.Reads` — the texts of all rules of a configuration.
* `RoutedAs` — the route that the rules give to a host.
* `Router.dialAll` — targets one after the other, with dialers that may remember what they were
  asked.
* `Router.routes_rules` — precedence, dispatch, and what further rules change.
-/

namespace SniffProxy

/-! ## Routers of a configuration -/

/-- The lists of a configuration have these rules, the ones in their files included. -/
structure RouterConfig.Reads (tree : FileTree) (config : RouterConfig)
    (block direct proxy : List String) : Prop where
  block : config.block.ruleTexts tree = .ok block
  direct : config.direct.ruleTexts tree = .ok direct
  proxy : config.proxy.ruleTexts tree = .ok proxy

namespace Router

/-- A router is made of the three lists once all of them are compiled. -/
theorem ofConfig_eq_ok_iff {tree : FileTree} {config : RouterConfig} {router : Router} :
    ofConfig tree config = .ok router ↔ config.block.compile tree = .ok router.block ∧
      config.direct.compile tree = .ok router.direct ∧
      config.proxy.compile tree = .ok router.proxy := by
  unfold ofConfig
  cases config.block.compile tree with
  | error error => simp [bind, Except.bind]
  | ok block =>
    cases config.direct.compile tree with
    | error error => simp [bind, Except.bind]
    | ok direct =>
      cases config.proxy.compile tree with
      | error error => simp [bind, Except.bind]
      | ok proxy =>
        cases router
        simp [bind, Except.bind, pure, Except.pure]

/-- The router of three lists of rules. -/
def ofRules (block direct proxy : List String) : Router :=
  ⟨.ofList block, .ofList direct, .ofList proxy⟩

end Router

theorem RouterConfig.Reads.ofConfig {tree : FileTree} {config : RouterConfig}
    {block direct proxy : List String} (h : config.Reads tree block direct proxy) :
    Router.ofConfig tree config = .ok (.ofRules block direct proxy) := by
  refine Router.ofConfig_eq_ok_iff.mpr ⟨?_, ?_, ?_⟩
  · rw [RuleList.compile_eq, h.block]
    rfl
  · rw [RuleList.compile_eq, h.direct]
    rfl
  · rw [RuleList.compile_eq, h.proxy]
    rfl

/-! ## Routes -/

/-- The route that three lists of rules give to a host. -/
inductive RoutedAs (block direct proxy : List String) (host : String) : Route → Prop where
  | block (hblock : Matched block host) : RoutedAs block direct proxy host .block
  | direct (hblock : ¬ Matched block host) (hdirect : Matched direct host) :
      RoutedAs block direct proxy host .direct
  | proxy (hblock : ¬ Matched block host) (hdirect : ¬ Matched direct host)
      (hproxy : Matched proxy host) : RoutedAs block direct proxy host .proxy
  | unmatched (hblock : ¬ Matched block host) (hdirect : ¬ Matched direct host)
      (hproxy : ¬ Matched proxy host) : RoutedAs block direct proxy host .unmatched

/-- More rules match more hosts. -/
theorem Matched.mono {rules more : List String} {host : String} (hsub : rules ⊆ more)
    (h : Matched rules host) : Matched more host := by
  obtain ⟨hhost, rule, hrule, hne, hnames⟩ := h
  exact ⟨hhost, rule, hsub hrule, hne, hnames⟩

namespace RoutedAs

variable {block direct proxy : List String} {host : String} {route other : Route}

/-- A host has one route. -/
theorem unique (h : RoutedAs block direct proxy host route)
    (hother : RoutedAs block direct proxy host other) : route = other := by
  cases h <;> cases hother <;> first | rfl | contradiction

/-- A further blocking rule leaves the route of a host or blocks it. -/
theorem block_mono {moreBlock : List String} (hsub : block ⊆ moreBlock)
    (h : RoutedAs block direct proxy host route)
    (hother : RoutedAs moreBlock direct proxy host other) : other = .block ∨ other = route := by
  cases hother with
  | block _ => exact .inl rfl
  | direct hblock hdirect =>
    exact .inr (unique (.direct (fun hmatched => hblock (hmatched.mono hsub)) hdirect) h)
  | proxy hblock hdirect hproxy =>
    exact .inr (unique (.proxy (fun hmatched => hblock (hmatched.mono hsub)) hdirect hproxy) h)
  | unmatched hblock hdirect hproxy =>
    exact .inr (unique (.unmatched (fun hmatched => hblock (hmatched.mono hsub)) hdirect hproxy) h)

/-- The dialer of a host does not depend on the proxy rules. -/
theorem viaOf_eq {otherProxy : List String} (h : RoutedAs block direct proxy host route)
    (hother : RoutedAs block direct otherProxy host other) :
    Router.viaOf other = Router.viaOf route := by
  cases h <;> cases hother <;> first | rfl | contradiction

end RoutedAs

namespace Router

/-- **A router follows its rules**, blocking ones before direct ones before proxy ones. -/
theorem routedAs_decide (block direct proxy : List String) (host : String) :
    RoutedAs block direct proxy host ((ofRules block direct proxy).decide host) := by
  have hcovers := fun rules => RuleSet.covers_ofList_iff rules host
  unfold decide ofRules
  split
  · rename_i hblock
    exact .block ((hcovers block).mp hblock)
  · rename_i hblock
    have hblock := mt (hcovers block).mpr hblock
    split
    · rename_i hdirect
      exact .direct hblock ((hcovers direct).mp hdirect)
    · rename_i hdirect
      have hdirect := mt (hcovers direct).mpr hdirect
      split
      · rename_i hproxy
        exact .proxy hblock hdirect ((hcovers proxy).mp hproxy)
      · rename_i hproxy
        exact .unmatched hblock hdirect (mt (hcovers proxy).mpr hproxy)

/-! ## Dispatch -/

variable {σ : Type}

/-- How a target is answered under some rules: with a refusal that asks no dialer, or with what the
dialer of its route makes of the request as it is, asked once. The mark of the route is logged
first. -/
structure Dispatched (block direct proxy : List String) (dialers : Dialers σ)
    (request : DialRequest) (dialed : Dialed σ) : Prop where
  blocked : Matched block request.target.host →
    dialed.dialing = .failed (.blocked request.target.host) none 0 [] ∧ dialed.requests = []
  directly : ¬ Matched block request.target.host → Matched direct request.target.host →
    dialed.dialing = dialers .direct request ∧ dialed.requests = [(.direct, request)]
  remotely : ¬ Matched block request.target.host → ¬ Matched direct request.target.host →
    dialed.dialing = dialers .remote request ∧ dialed.requests = [(.remote, request)]
  logged : ∃ route, RoutedAs block direct proxy request.target.host route ∧
    dialed.log = LogEvent.routed route.marker request.target :: dialed.dialing.log

theorem dispatched_dial (block direct proxy : List String) (dialers : Dialers σ)
    (request : DialRequest) :
    Dispatched block direct proxy dialers request
      ((ofRules block direct proxy).dial dialers request) := by
  have hrouted := routedAs_decide block direct proxy request.target.host
  unfold dial
  generalize (ofRules block direct proxy).decide request.target.host = route at hrouted ⊢
  have hlogged := hrouted
  cases hrouted with
  | block hblock =>
    exact ⟨fun _ => ⟨rfl, rfl⟩, fun h => absurd hblock h, fun h => absurd hblock h,
      .block, hlogged, rfl⟩
  | direct hblock hdirect =>
    exact ⟨fun h => absurd h hblock, fun _ _ => ⟨rfl, rfl⟩, fun _ h => absurd hdirect h,
      .direct, hlogged, rfl⟩
  | proxy hblock hdirect _ =>
    exact ⟨fun h => absurd h hblock, fun _ h => absurd h hdirect, fun _ _ => ⟨rfl, rfl⟩,
      .proxy, hlogged, rfl⟩
  | unmatched hblock hdirect _ =>
    exact ⟨fun h => absurd h hblock, fun _ h => absurd h hdirect, fun _ _ => ⟨rfl, rfl⟩,
      .unmatched, hlogged, rfl⟩

/-- Routes targets one after the other. What the dialers make of a request may depend on what they
were asked before. -/
def dialAll (router : Router) (dialers : List (Via × DialRequest) → Dialers σ)
    (asked : List (Via × DialRequest)) : List DialRequest → List (Dialed σ)
  | [] => []
  | request :: requests =>
    let dialed := router.dial (dialers asked) request
    dialed :: router.dialAll dialers (asked ++ dialed.requests) requests

variable (router : Router) (dialers : List (Via × DialRequest) → Dialers σ)

/-- Targets in two parts: the second is routed as if it were alone, with dialers that were asked
what the first led to. -/
theorem dialAll_append (asked : List (Via × DialRequest)) (first second : List DialRequest) :
    router.dialAll dialers asked (first ++ second) =
      router.dialAll dialers asked first ++
        router.dialAll dialers
          (asked ++ (router.dialAll dialers asked first).flatMap Dialed.requests) second := by
  induction first generalizing asked with
  | nil => simp [dialAll]
  | cons request first ih =>
    simp only [List.cons_append, dialAll, ih, List.flatMap_cons, List.append_assoc]

/-- With dialers that do not remember, each target is answered for itself. -/
theorem dialAll_const (dialers : Dialers σ) (asked : List (Via × DialRequest))
    (requests : List DialRequest) :
    router.dialAll (fun _ => dialers) asked requests = requests.map (router.dial dialers) := by
  induction requests generalizing asked with
  | nil => rfl
  | cons request requests ih => simp only [dialAll, ih, List.map_cons]

/-- What a router makes of a target but for the mark of the route in the log. -/
def Dialed.outcome (dialed : Dialed σ) : Dialing σ × List (Via × DialRequest) :=
  (dialed.dialing, dialed.requests)

/-- Routers that lead every host to the same dialer have the same outcomes. -/
theorem outcome_dialAll {router other : Router}
    (h : ∀ host, viaOf (other.decide host) = viaOf (router.decide host))
    (asked : List (Via × DialRequest)) (requests : List DialRequest) :
    (other.dialAll dialers asked requests).map Dialed.outcome =
      (router.dialAll dialers asked requests).map Dialed.outcome := by
  have hdial : ∀ (dialers : Dialers σ) (request : DialRequest),
      (other.dial dialers request).outcome = (router.dial dialers request).outcome := by
    intro dialers request
    unfold dial
    simp only [h]
    cases viaOf (router.decide request.target.host) <;> simp only [Dialed.outcome]
  induction requests generalizing asked with
  | nil => rfl
  | cons request requests ih =>
    have hrequests : (other.dial (dialers asked) request).requests =
        (router.dial (dialers asked) request).requests := congrArg Prod.snd (hdial _ request)
    simp only [dialAll, List.map_cons, hdial, hrequests, ih]

end Router

/-- **What the rules of a router decide.** A configuration whose lists can be read has a router, and
for any dialers, however they answer and whatever they remember:

* hosts are routed by the rules, blocking before direct before proxy ones;
* among any targets, each is dispatched by its own route with the dialers as they are by then, and
  if they do not remember, just as it is alone;
* further blocking rules only block further hosts;
* other proxy rules lead to the same requests and the same outcomes. -/
theorem Router.routes_rules {tree : FileTree} {config : RouterConfig}
    {block direct proxy : List String} (hreads : config.Reads tree block direct proxy) :
    ∃ router, Router.ofConfig tree config = .ok router ∧
      (∀ host, RoutedAs block direct proxy host (router.decide host)) ∧
      (∀ {σ : Type} (dialers : List (Via × DialRequest) → Dialers σ)
        (before after : List DialRequest) (request : DialRequest), ∃ dialed,
        Dispatched block direct proxy
          (dialers ((router.dialAll dialers [] before).flatMap Dialed.requests)) request dialed ∧
        router.dialAll dialers [] (before ++ request :: after) =
          router.dialAll dialers [] before ++ dialed ::
            router.dialAll dialers
              ((router.dialAll dialers [] before).flatMap Dialed.requests ++ dialed.requests)
              after) ∧
      (∀ {σ : Type} (dialers : Dialers σ) (requests : List DialRequest),
        router.dialAll (fun _ => dialers) [] requests = requests.map (router.dial dialers)) ∧
      (∀ (other : RouterConfig) (moreBlock : List String),
        other.Reads tree moreBlock direct proxy → block ⊆ moreBlock →
        ∃ otherRouter, Router.ofConfig tree other = .ok otherRouter ∧
          ∀ host, otherRouter.decide host = .block ∨
            otherRouter.decide host = router.decide host) ∧
      ∀ (other : RouterConfig) (otherProxy : List String),
        other.Reads tree block direct otherProxy →
        ∃ otherRouter, Router.ofConfig tree other = .ok otherRouter ∧
          ∀ {σ : Type} (dialers : List (Via × DialRequest) → Dialers σ)
            (requests : List DialRequest),
            (otherRouter.dialAll dialers [] requests).map Dialed.outcome =
              (router.dialAll dialers [] requests).map Dialed.outcome := by
  refine ⟨.ofRules block direct proxy, hreads.ofConfig, routedAs_decide block direct proxy,
    fun dialers before after request => ⟨_, dispatched_dial block direct proxy _ request, ?_⟩,
    fun dialers requests => dialAll_const _ dialers [] requests,
    fun other moreBlock hother hsub => ⟨_, hother.ofConfig, fun host => ?_⟩,
    fun other otherProxy hother => ⟨_, hother.ofConfig, fun dialers requests => ?_⟩⟩
  · rw [dialAll_append, List.nil_append]
    rfl
  · exact (routedAs_decide block direct proxy host).block_mono hsub
      (routedAs_decide moreBlock direct proxy host)
  · refine outcome_dialAll dialers (fun host => ?_) [] requests
    exact (routedAs_decide block direct proxy host).viaOf_eq
      (routedAs_decide block direct otherProxy host)

/-- Rules for a home network, its direct ones in part in a file. -/
def homeRules : RouterConfig where
  block := { rules := ["ads.nas"] }
  direct := localNetwork
  proxy := { rules := ["**.example.com"] }

theorem Router.routes_rules_homeRules :
    ∃ router, ofConfig ⟨[("lan.txt", utf8 "lan\r\n\r\n  nas ")]⟩ homeRules = .ok router ∧
      router.decide "Ads.nas." = .block ∧ router.decide "tv.nas" = .direct ∧
      router.decide "www.example.com" = .direct ∧ router.decide "a.www.example.com" = .proxy ∧
      (∃ other, ofConfig ⟨[("lan.txt", utf8 "lan\r\n\r\n  nas ")]⟩
          { homeRules with block := { rules := ["tv.nas", "ads.nas"] } } = .ok other ∧
        ∀ host, other.decide host = .block ∨ other.decide host = router.decide host) ∧
      ∃ other, ofConfig ⟨[("lan.txt", utf8 "lan\r\n\r\n  nas ")]⟩
          { homeRules with proxy := {} } = .ok other ∧
        ∀ (dialers : List (Via × DialRequest) → Dialers Unit) (requests : List DialRequest),
          (other.dialAll dialers [] requests).map Dialed.outcome =
            (router.dialAll dialers [] requests).map Dialed.outcome := by
  have hdirect : localNetwork.ruleTexts ⟨[("lan.txt", utf8 "lan\r\n\r\n  nas ")]⟩ =
      .ok ["*.Example.com.", " **.LAN", "**.lan", "**.nas"] := localNetwork_ruleTexts
  have hreads : homeRules.Reads ⟨[("lan.txt", utf8 "lan\r\n\r\n  nas ")]⟩ ["ads.nas"]
      ["*.Example.com.", " **.LAN", "**.lan", "**.nas"] ["**.example.com"] := ⟨rfl, hdirect, rfl⟩
  obtain ⟨router, hrouter, -, -, -, hblock, hproxy⟩ := routes_rules hreads
  have heq : router = ofRules ["ads.nas"] ["*.Example.com.", " **.LAN", "**.lan", "**.nas"]
      ["**.example.com"] := by
    rw [hreads.ofConfig] at hrouter
    cases hrouter
    rfl
  refine ⟨router, hrouter, ?_, ?_, ?_, ?_, ?_, ?_⟩
  · rw [heq]
    decide
  · rw [heq]
    decide
  · rw [heq]
    decide
  · rw [heq]
    decide
  · exact hblock _ ["tv.nas", "ads.nas"] ⟨rfl, hdirect, rfl⟩ (by decide)
  · obtain ⟨other, hother, houtcome⟩ :=
      hproxy { homeRules with proxy := {} } [] ⟨rfl, hdirect, rfl⟩
    exact ⟨other, hother, fun dialers requests => houtcome dialers requests⟩

end SniffProxy
