import SniffProxy.Proofs.Config.Layers
import SniffProxy.Proofs.Rule.Cover
import SniffProxy.Proofs.Rule.Normal
import SniffProxy.Proofs.Rule.Routing

/-!
# The remote is reached directly

A configuration that was loaded has the host of its remote and the reverse zones among its direct
rules, whatever the file and the command line say about rules. So no router made from it sends them
through the remote.

* `Config.load_keepsDirect` — what loading adds to the direct rules.
* `Router.NotProxied` — a host that is never dialed through the remote.
* `Config.load_notProxied` — the remote itself, however spelled, and all of the reverse zones.
-/

namespace SniffProxy

/-! ## Loading -/

/-- The host of the remote and the reverse zones are among the direct rules. -/
structure Config.KeepsDirect (config : Config) (endpoint : HostPort) : Prop where
  remote : config.remote.endpoint = some endpoint
  rules : ∀ rule ∈ endpoint.host :: reverseZones, rule ∈ config.router.direct.rules

/-- **Loading keeps the remote direct**: every configuration that was loaded has a remote, and its
host and the reverse zones are direct rules. -/
theorem Config.load_keepsDirect {tree : FileTree} {a : Arguments} {config : Config}
    (h : load tree a = .ok config) : ∃ endpoint, config.KeepsDirect endpoint := by
  unfold load at h
  split at h
  · cases h
  · obtain ⟨merged, endpoint, -, husable, rfl⟩ := complete_eq_ok_iff.mp h
    have hremote := RemoteSettings.endpoint_eq_some_iff.mpr
      ⟨husable.remote.split, husable.remote.host⟩
    exact ⟨endpoint, hremote, fun rule hrule => List.mem_append_right _ hrule⟩

/-! ## Routing -/

namespace Router

/-- The compiled direct rules of a configuration. -/
theorem direct_of_ofConfig {tree : FileTree} {config : RouterConfig} {router : Router}
    (h : ofConfig tree config = .ok router) : config.direct.compile tree = .ok router.direct :=
  (ofConfig_eq_ok_iff.mp h).2.1

/-- A host that no router of this kind sends through the remote: it is blocked or dialed directly,
the dialer of the remote is not asked, and what that dialer would do changes nothing. -/
structure NotProxied (router : Router) (host : String) : Prop where
  route : router.decide host = .block ∨ router.decide host = .direct
  requests : ∀ {σ : Type} (dialers : Dialers σ) (request : DialRequest),
    request.target.host = host → ∀ asked ∈ (router.dial dialers request).requests, asked.1 ≠ .remote
  ignores : ∀ {σ : Type} (dialers others : Dialers σ) (request : DialRequest),
    request.target.host = host → dialers .direct = others .direct →
      router.dial dialers request = router.dial others request

/-- A direct rule keeps a host off the remote, whatever the other lists say. -/
theorem notProxied_of_covers {router : Router} {host : String}
    (h : router.direct.covers host = true) : router.NotProxied host := by
  have hroute : router.decide host = .block ∨ router.decide host = .direct := by
    unfold decide
    split
    · exact .inl rfl
    · exact .inr rfl
  refine ⟨hroute, ?_, ?_⟩
  · rintro σ dialers request rfl asked hasked
    unfold dial at hasked
    obtain hblock | hdirect := hroute
    · simp only [hblock, viaOf, List.not_mem_nil] at hasked
    · simp only [hdirect, viaOf, List.mem_singleton] at hasked
      rw [hasked]
      nofun
  · rintro σ dialers others request rfl hsame
    unfold dial
    obtain hblock | hdirect := hroute
    · simp [hblock, viaOf]
    · simp [hdirect, viaOf, hsame]

end Router

/-! ## The remote and the reverse zones -/

/-- A host whose normal form is the zone or a name below it. -/
def InZone (zone host : String) : Prop :=
  normalizeHost host = zone.toList ∨ ∃ front, normalizeHost host = front ++ '.' :: zone.toList

theorem reverseZones_anyDepth {zone : String} (h : zone = "in-addr.arpa" ∨ zone = "ip6.arpa") :
    zone.toList ≠ [] ∧ ∃ rule ∈ reverseZones, normalizeHost rule ≠ [] ∧
      RulePattern.ofChars (normalizeHost rule) = .anyDepth zone.toList := by
  obtain rfl | rfl := h
  · exact ⟨by decide, "**.in-addr.arpa", by decide, by decide, by decide⟩
  · exact ⟨by decide, "**.ip6.arpa", by decide, by decide, by decide⟩

/-- **The proxy never proxies itself.** Whatever the file and the command line say, a router made
from a configuration that was loaded blocks everything in the reverse zones or dials it directly,
and it does the same with the remote itself, unless the remote has an empty normal form: with every
host of that normal form, and so with every spelling of the remote. -/
theorem Config.load_notProxied {tree files : FileTree} {a : Arguments} {config : Config}
    {router : Router} (hload : load tree a = .ok config)
    (hrouter : Router.ofConfig files config.router = .ok router) :
    (∀ zone host, zone = "in-addr.arpa" ∨ zone = "ip6.arpa" → InZone zone host →
      router.NotProxied host) ∧
    ∃ endpoint, config.remote.endpoint = some endpoint ∧
      (normalizeHost endpoint.host ≠ [] → ∀ host,
        normalizeHost host = normalizeHost endpoint.host ∨ IsSpelling endpoint.host host →
        router.NotProxied host) := by
  obtain ⟨endpoint, hremote, hrules⟩ := load_keepsDirect hload
  have hdirect := Router.direct_of_ofConfig hrouter
  refine ⟨fun zone host hzone hhost => ?_, endpoint, hremote, fun hne host hhost => ?_⟩
  · obtain ⟨hne, rule, hrule, hrulene, hpattern⟩ := reverseZones_anyDepth hzone
    have hmem := hrules rule (List.mem_cons_of_mem _ hrule)
    have hhas := RuleList.has_of_compile hdirect hmem hrulene
    rw [hpattern] at hhas
    exact Router.notProxied_of_covers (RuleSet.covers_below hhas hne hhost)
  · have hsame : normalizeHost host = normalizeHost endpoint.host :=
      hhost.elim id IsSpelling.normalizeHost_eq
    have hhas := RuleList.has_of_compile hdirect (hrules endpoint.host List.mem_cons_self) hne
    exact Router.notProxied_of_covers (RuleSet.covers_own hhas hne hsame)

/-- A remote under a name that the user wants proxied. -/
def ownNetwork : Arguments where
  remoteAddress := some "Proxy.Example.com:8443"
  remotePassword := some "secret"
  proxyRules := ["**.example.com"]

theorem Config.load_notProxied_ownNetwork :
    ∃ config router, load (FileTree.mk []) ownNetwork = .ok config ∧
      Router.ofConfig (FileTree.mk []) config.router = .ok router ∧
      router.NotProxied " proxy.example.COM.. " ∧ router.decide "www.example.com" = .proxy := by
  have hload : load ⟨[]⟩ ownNetwork = .ok
      { remote := { address := "Proxy.Example.com:8443", password := "secret" }
        router :=
          { direct := { rules := "Proxy.Example.com" :: reverseZones }
            proxy := { rules := ["**.example.com"] } } } := by rfl
  have hrouter : Router.ofConfig ⟨[]⟩
      { direct := { rules := "Proxy.Example.com" :: reverseZones }
        proxy := { rules := ["**.example.com"] } } = .ok
      ⟨.empty, .ofList ("Proxy.Example.com" :: reverseZones), .ofList ["**.example.com"]⟩ := by rfl
  obtain ⟨-, endpoint, hremote, hall⟩ := load_notProxied hload hrouter
  cases show endpoint = ⟨"Proxy.Example.com", 8443⟩ from Option.some.inj hremote.symm
  exact ⟨_, _, hload, hrouter, hall (by decide) _ (.inl (by decide)), by decide⟩

end SniffProxy
