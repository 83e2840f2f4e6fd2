import SniffProxy.Config.Load

/-!
# Layers of settings

What loading makes of a file and a command line, setting by setting, and when it succeeds.

* `RemoteKind.ofName_eq_ok_iff` — the spellings of the kinds of remote.
* `Config.Layered`, `Config.override_eq_ok_iff` — the command line over the file.
* `Config.Usable`, `Config.validate_eq_ok_iff` — what a configuration must have to be used.
* `Config.load_layers` — loading, from both.
-/

namespace SniffProxy

/-! ## Spellings of kinds -/

namespace RemoteKind

/-- The names of a kind, in lower case. -/
def spellings : RemoteKind → List String
  | compact => ["sower"]
  | trojan => ["trojan"]
  | socks5 => ["socks5"]
  | sshd => ["sshd", "ssh"]

/-- A text that spells a name of the kind, in any ASCII case. -/
def SpelledAs (kind : RemoteKind) (text : String) : Prop :=
  ∃ spelling ∈ kind.spellings, Text.asciiLower text.toList = spelling.toList

theorem spelledAs_iff {kind : RemoteKind} {text : String} :
    kind.SpelledAs text ↔ String.ofList (Text.asciiLower text.toList) ∈ kind.spellings := by
  constructor
  · rintro ⟨spelling, hmem, h⟩
    rw [h, String.ofList_toList]
    exact hmem
  · intro hmem
    exact ⟨_, hmem, (String.toList_ofList ..).symm⟩

/-- The kinds that a text names are those that it spells. -/
theorem ofName_eq_ok_iff {kind : RemoteKind} {text : String} :
    ofName text = .ok kind ↔ kind.SpelledAs text := by
  rw [spelledAs_iff]
  unfold ofName
  split <;> cases kind <;> simp_all [spellings]

end RemoteKind

/-! ## Merging -/

/-- The value of a setting: what the command line says, and without that what is below it. -/
structure Overrides {α : Type} (given : Option α) (below value : α) : Prop where
  taken : ∀ v, given = some v → value = v
  kept : given = none → value = below

theorem overrides_iff {α : Type} {given : Option α} {below value : α} :
    Overrides given below value ↔ value = given.getD below := by
  cases given with
  | none => exact ⟨fun h => h.kept rfl, fun h => ⟨nofun, fun _ => h⟩⟩
  | some v =>
    refine ⟨fun h => h.taken v rfl, fun h => ⟨fun v' hv' => ?_, nofun⟩⟩
    cases hv'
    exact h

/-- A list of rules with more rules behind its own, and with the same file of further rules. -/
structure RuleList.Extends (list : RuleList) (more : List String) (merged : RuleList) : Prop where
  rules : merged.rules = list.rules ++ more
  file : merged.file = list.file
  filePrefix : merged.filePrefix = list.filePrefix

theorem RuleList.extends_iff {list merged : RuleList} {more : List String} :
    list.Extends more merged ↔ merged = list.append more := by
  refine ⟨fun h => ?_, ?_⟩
  · obtain ⟨file, filePrefix, rules⟩ := merged
    obtain ⟨rfl, rfl, rfl⟩ := h
    rfl
  · rintro rfl
    exact ⟨rfl, rfl, rfl⟩

/-- A remote under what a command line says about it. -/
structure RemoteSettings.Layered (below : RemoteSettings) (a : Arguments)
    (remote : RemoteSettings) : Prop where
  kindTaken : ∀ text, a.remoteType = some text → remote.kind.SpelledAs text
  kindKept : a.remoteType = none → remote.kind = below.kind
  address : Overrides a.remoteAddress below.address remote.address
  user : Overrides a.remoteUser below.user remote.user
  password : Overrides a.remotePassword below.password remote.password

/-- Limits under what a command line says about them. -/
structure ConnectionSettings.Layered (below : ConnectionSettings) (a : Arguments)
    (c : ConnectionSettings) : Prop where
  connectTimeout : Overrides a.connectTimeout below.connectTimeout c.connectTimeout
  requestTimeout : Overrides a.requestTimeout below.requestTimeout c.requestTimeout
  idleTimeout : Overrides a.idleTimeout below.idleTimeout c.idleTimeout
  bufferSize : Overrides a.bufferSize below.bufferSize c.bufferSize
  maxConnections : Overrides a.maxConnections below.maxConnections c.maxConnections
  tcpNoDelay : Overrides a.tcpNoDelay below.tcpNoDelay c.tcpNoDelay

/-- A configuration under a command line, with some rules for the direct list behind all others.
Every single setting is what the command line says, and without that what it was; what either of the
two disables is disabled; the rules of the command line follow those that were there. -/
structure Config.Layered (below : Config) (a : Arguments) (direct : List String)
    (config : Config) : Prop where
  remote : below.remote.Layered a config.remote
  serve : Overrides a.sniffersServe below.sniffers.serve config.sniffers.serve
  socksAddress : Overrides a.socksAddress below.socks.address config.socks.address
  connection : below.connection.Layered a config.connection
  sniffersDisabled : config.sniffers.disabled = true ↔
    below.sniffers.disabled = true ∨ a.sniffersDisabled = true
  socksDisabled : config.socks.disabled = true ↔
    below.socks.disabled = true ∨ a.socksDisabled = true
  blockRules : below.router.block.Extends a.blockRules config.router.block
  directRules : below.router.direct.Extends (a.directRules ++ direct) config.router.direct
  proxyRules : below.router.proxy.Extends a.proxyRules config.router.proxy

section

variable {a : Arguments}

/-- The kind that is chosen is the one that the command line spells, or else the one below. -/
theorem Config.chosenKind_eq_ok_iff {below kind : RemoteKind} :
    chosenKind a below = .ok kind ↔
      (∀ text, a.remoteType = some text → kind.SpelledAs text) ∧
        (a.remoteType = none → kind = below) := by
  unfold chosenKind
  cases a.remoteType with
  | none => simp [eq_comm]
  | some text => simp [RemoteKind.ofName_eq_ok_iff]

theorem RemoteSettings.layered_iff {below remote : RemoteSettings} :
    below.Layered a remote ↔
      ∃ kind, Config.chosenKind a below.kind = .ok kind ∧ remote = below.override a kind := by
  constructor
  · intro h
    refine ⟨remote.kind, Config.chosenKind_eq_ok_iff.mpr ⟨h.kindTaken, h.kindKept⟩, ?_⟩
    rw [override, ← overrides_iff.mp h.address, ← overrides_iff.mp h.user,
      ← overrides_iff.mp h.password]
  · rintro ⟨kind, hkind, rfl⟩
    obtain ⟨htaken, hkept⟩ := Config.chosenKind_eq_ok_iff.mp hkind
    exact ⟨htaken, hkept, overrides_iff.mpr rfl, overrides_iff.mpr rfl, overrides_iff.mpr rfl⟩

theorem ConnectionSettings.layered_iff {below c : ConnectionSettings} :
    below.Layered a c ↔ c = below.override a := by
  constructor
  · intro h
    rw [override, ← overrides_iff.mp h.connectTimeout, ← overrides_iff.mp h.requestTimeout,
      ← overrides_iff.mp h.idleTimeout, ← overrides_iff.mp h.bufferSize,
      ← overrides_iff.mp h.maxConnections, ← overrides_iff.mp h.tcpNoDelay]
  · rintro rfl
    constructor <;> exact overrides_iff.mpr rfl

/-- **Changing a configuration by a command line** puts the one layer on the other. -/
theorem Config.override_eq_ok_iff {below config : Config} :
    below.override a = .ok config ↔ below.Layered a [] config := by
  unfold override
  constructor
  · intro h
    split at h
    case h_1 => cases h
    case h_2 kind hkind =>
      cases h
      exact {
        remote := RemoteSettings.layered_iff.mpr ⟨kind, hkind, rfl⟩
        serve := overrides_iff.mpr rfl
        socksAddress := overrides_iff.mpr rfl
        connection := ConnectionSettings.layered_iff.mpr rfl
        sniffersDisabled := by simp
        socksDisabled := by simp
        blockRules := RuleList.extends_iff.mpr rfl
        directRules := RuleList.extends_iff.mpr (by simp)
        proxyRules := RuleList.extends_iff.mpr rfl }
  · intro h
    obtain ⟨kind, hkind, hremote⟩ := RemoteSettings.layered_iff.mp h.remote
    have hsniffers :
        config.sniffers.disabled = (below.sniffers.disabled || a.sniffersDisabled) := by
      rw [Bool.eq_iff_iff, h.sniffersDisabled, Bool.or_eq_true]
    have hsocks : config.socks.disabled = (below.socks.disabled || a.socksDisabled) := by
      rw [Bool.eq_iff_iff, h.socksDisabled, Bool.or_eq_true]
    have hdirect : config.router.direct = below.router.direct.append a.directRules := by
      simpa using RuleList.extends_iff.mp h.directRules
    rw [hkind]
    simp only [← hremote, ← overrides_iff.mp h.serve, ← overrides_iff.mp h.socksAddress,
      ← ConnectionSettings.layered_iff.mp h.connection, ← hsniffers, ← hsocks,
      ← RuleList.extends_iff.mp h.blockRules, ← hdirect, ← RuleList.extends_iff.mp h.proxyRules]

end

/-! ## Validity -/

/-- A remote that can be entered: its address names a host, and there is everything that its kind
asks for. -/
structure RemoteSettings.Usable (remote : RemoteSettings) (endpoint : HostPort) : Prop where
  address : remote.address ≠ ""
  split : HostPort.split remote.address remote.kind.defaultPort = some endpoint
  host : endpoint.host ≠ ""
  password : remote.kind ≠ .socks5 → remote.password ≠ ""
  user : remote.kind = .sshd → remote.user ≠ ""

/-- A configuration that can be used, with the host and port of its remote. -/
structure Config.Usable (config : Config) (endpoint : HostPort) : Prop where
  remote : config.remote.Usable endpoint
  serve : config.sniffers.disabled = false → config.sniffers.serve ≠ ""
  socksAddress : config.socks.disabled = false → config.socks.address ≠ ""
  bufferSize : 0 < config.connection.bufferSize

theorem RemoteKind.needsPassword_iff {kind : RemoteKind} :
    kind.needsPassword = true ↔ kind ≠ .socks5 := by
  cases kind <;> decide

theorem RemoteKind.needsUser_iff {kind : RemoteKind} : kind.needsUser = true ↔ kind = .sshd := by
  cases kind <;> decide

theorem RemoteSettings.endpoint_eq_some_iff {remote : RemoteSettings} {endpoint : HostPort} :
    remote.endpoint = some endpoint ↔
      HostPort.split remote.address remote.kind.defaultPort = some endpoint ∧
        endpoint.host ≠ "" := by
  simp [RemoteSettings.endpoint, Option.filter_eq_some_iff]

/-- What is checked comes out fine if the check does not strike and the rest comes out fine. -/
theorem check_eq_ok_iff {ε α : Type} {p : Prop} [Decidable p] {fault : ε} {rest : Except ε α}
    {value : α} : (if p then .error fault else rest) = .ok value ↔ ¬p ∧ rest = .ok value := by
  split <;> simp_all

theorem RemoteSettings.validate_eq_ok_iff {remote : RemoteSettings} {endpoint : HostPort} :
    remote.validate = .ok endpoint ↔ remote.Usable endpoint := by
  constructor
  · intro h
    obtain ⟨haddress, h⟩ := check_eq_ok_iff.mp h
    split at h
    case h_1 => cases h
    case h_2 found hfound =>
      obtain ⟨hpassword, h⟩ := check_eq_ok_iff.mp h
      obtain ⟨huser, h⟩ := check_eq_ok_iff.mp h
      cases h
      obtain ⟨hsplit, hhost⟩ := endpoint_eq_some_iff.mp hfound
      exact {
        address := haddress
        split := hsplit
        host := hhost
        password := fun hkind hempty =>
          hpassword ⟨RemoteKind.needsPassword_iff.mpr hkind, hempty⟩
        user := fun hkind hempty => huser ⟨RemoteKind.needsUser_iff.mpr hkind, hempty⟩ }
  · intro h
    have hpassword : ¬(remote.kind.needsPassword = true ∧ remote.password = "") :=
      fun ⟨hkind, hempty⟩ => h.password (RemoteKind.needsPassword_iff.mp hkind) hempty
    have huser : ¬(remote.kind.needsUser = true ∧ remote.user = "") :=
      fun ⟨hkind, hempty⟩ => h.user (RemoteKind.needsUser_iff.mp hkind) hempty
    refine check_eq_ok_iff.mpr ⟨h.address, ?_⟩
    rw [endpoint_eq_some_iff.mpr ⟨h.split, h.host⟩]
    exact check_eq_ok_iff.mpr ⟨hpassword, check_eq_ok_iff.mpr ⟨huser, rfl⟩⟩

/-- **Validation accepts exactly what can be used**, and answers the host and port of the remote. -/
theorem Config.validate_eq_ok_iff {config : Config} {endpoint : HostPort} :
    config.validate = .ok endpoint ↔ config.Usable endpoint := by
  unfold validate
  constructor
  · intro h
    split at h
    case h_1 => cases h
    case h_2 found hremote =>
      obtain ⟨hserve, h⟩ := check_eq_ok_iff.mp h
      obtain ⟨hsocks, h⟩ := check_eq_ok_iff.mp h
      obtain ⟨hbuffer, h⟩ := check_eq_ok_iff.mp h
      cases h
      exact {
        remote := RemoteSettings.validate_eq_ok_iff.mp hremote
        serve := fun henabled hempty => hserve ⟨henabled, hempty⟩
        socksAddress := fun henabled hempty => hsocks ⟨henabled, hempty⟩
        bufferSize := Nat.pos_of_ne_zero hbuffer }
  · intro h
    rw [RemoteSettings.validate_eq_ok_iff.mpr h.remote]
    have hserve : ¬(config.sniffers.disabled = false ∧ config.sniffers.serve = "") :=
      fun ⟨henabled, hempty⟩ => h.serve henabled hempty
    have hsocks : ¬(config.socks.disabled = false ∧ config.socks.address = "") :=
      fun ⟨henabled, hempty⟩ => h.socksAddress henabled hempty
    have hbuffer : ¬config.connection.bufferSize = 0 := Nat.pos_iff_ne_zero.mp h.bufferSize
    exact check_eq_ok_iff.mpr ⟨hserve, check_eq_ok_iff.mpr ⟨hsocks,
      check_eq_ok_iff.mpr ⟨hbuffer, rfl⟩⟩⟩

/-! ## Loading -/

section

variable {below merged final : Config} {a : Arguments} {endpoint : HostPort}

/-- More direct rules leave everything alone that is validated. -/
theorem Config.usable_withDirect {config : Config} {rules : List String} :
    (config.withDirect rules).Usable endpoint ↔ config.Usable endpoint :=
  ⟨fun h => ⟨h.remote, h.serve, h.socksAddress, h.bufferSize⟩,
    fun h => ⟨h.remote, h.serve, h.socksAddress, h.bufferSize⟩⟩

/-- More direct rules come behind those of both layers. -/
theorem Config.layered_withDirect_iff {rules : List String} :
    below.Layered a rules final ↔
      ∃ merged, below.Layered a [] merged ∧ final = merged.withDirect rules := by
  constructor
  · intro h
    let direct := below.router.direct.append a.directRules
    refine ⟨{ final with router := { final.router with direct } },
      { h with directRules := RuleList.extends_iff.mpr (by simp [direct]) }, ?_⟩
    have hdirect : final.router.direct = direct.append rules := by
      simpa [direct, RuleList.append] using RuleList.extends_iff.mp h.directRules
    show final = { final with router := { final.router with direct := direct.append rules } }
    rw [← hdirect]
  · rintro ⟨merged, h, rfl⟩
    have hdirect := RuleList.extends_iff.mp h.directRules
    exact { h with directRules := RuleList.extends_iff.mpr (by
      simp [withDirect, hdirect, RuleList.append]) }

/-- There is a merged configuration exactly if the command line names no kind or a known one. -/
theorem Config.exists_layered_iff (below : Config) :
    (∃ merged, below.Layered a [] merged) ↔
      ∀ text, a.remoteType = some text → ∃ kind : RemoteKind, kind.SpelledAs text := by
  constructor
  · rintro ⟨merged, h⟩ text htext
    exact ⟨_, h.remote.kindTaken text htext⟩
  · intro h
    have hkind : ∃ kind, chosenKind a below.remote.kind = .ok kind := by
      simp only [chosenKind_eq_ok_iff]
      cases htype : a.remoteType with
      | none => exact ⟨below.remote.kind, nofun, fun _ => rfl⟩
      | some text =>
        obtain ⟨kind, hspelled⟩ := h text htype
        refine ⟨kind, fun text' htext' => ?_, nofun⟩
        cases htext'
        exact hspelled
    obtain ⟨kind, hkind⟩ := hkind
    simp only [← override_eq_ok_iff, override, hkind]
    exact ⟨_, rfl⟩

/-- There is only one way to put a command line on a configuration. -/
theorem Config.Layered.unique {merged' : Config} (h : below.Layered a [] merged)
    (h' : below.Layered a [] merged') : merged = merged' :=
  Except.ok.inj ((override_eq_ok_iff.mpr h).symm.trans (override_eq_ok_iff.mpr h'))

theorem Config.finalize_eq_ok_iff {config : Config} :
    config.finalize = .ok final ↔
      ∃ endpoint, config.Usable endpoint ∧
        final = config.withDirect (endpoint.host :: reverseZones) := by
  unfold finalize
  constructor
  · intro h
    split at h
    case h_1 => cases h
    case h_2 endpoint hvalid =>
      cases h
      exact ⟨endpoint, validate_eq_ok_iff.mp hvalid, rfl⟩
  · rintro ⟨endpoint, husable, rfl⟩
    rw [validate_eq_ok_iff.mpr husable]

theorem Config.complete_eq_ok_iff :
    below.complete a = .ok final ↔
      ∃ merged endpoint, below.Layered a [] merged ∧ merged.Usable endpoint ∧
        final = merged.withDirect (endpoint.host :: reverseZones) := by
  unfold complete
  constructor
  · intro h
    split at h
    case h_1 => cases h
    case h_2 merged hmerged =>
      split at h
      case h_1 => cases h
      case h_2 found hfinal =>
        cases h
        obtain ⟨endpoint, husable, rfl⟩ := finalize_eq_ok_iff.mp hfinal
        exact ⟨merged, endpoint, override_eq_ok_iff.mp hmerged, husable, rfl⟩
  · rintro ⟨merged, endpoint, hmerged, husable, rfl⟩
    rw [override_eq_ok_iff.mpr hmerged]
    simp only [finalize_eq_ok_iff.mpr ⟨endpoint, husable, rfl⟩]

/-- **Loading puts the command line on the file, and succeeds exactly if that can be used.** For a
configuration read from a file, or the defaults:

* loading succeeds if and only if a kind that the command line asks for is a known spelling and the
  merged configuration can be used;
* what is loaded has every single setting of the command line if given there and of the file
  otherwise, everything disabled that one of them disables, and the rules of the file followed by
  those of the command line, the direct ones followed by the host of the remote and the reverse
  zones. Where a list reads further rules from stays as in the file. -/
theorem Config.load_layers {tree : FileTree} (hfile : ofFile tree a.configFile = .ok below) :
    ((∃ final, load tree a = .ok final) ↔
      (∀ text, a.remoteType = some text → ∃ kind : RemoteKind, kind.SpelledAs text) ∧
        ∀ merged, below.Layered a [] merged → ∃ endpoint, merged.Usable endpoint) ∧
    ∀ final, load tree a = .ok final ↔
      ∃ endpoint : HostPort, final.Usable endpoint ∧
        below.Layered a [endpoint.host, "**.in-addr.arpa", "**.ip6.arpa"] final := by
  have hload : load tree a = below.complete a := by
    simp only [load, hfile]
  rw [hload]
  refine ⟨?_, fun final => ?_⟩
  case refine_1 =>
    -- a kind that is known is all it takes to merge the two
    rw [← exists_layered_iff below]
    constructor
    · rintro ⟨final, h⟩
      obtain ⟨merged, endpoint, hmerged, husable, -⟩ := complete_eq_ok_iff.mp h
      refine ⟨⟨merged, hmerged⟩, fun merged' hmerged' => ⟨endpoint, ?_⟩⟩
      rw [← hmerged.unique hmerged']
      exact husable
    · rintro ⟨⟨merged, hmerged⟩, hall⟩
      obtain ⟨endpoint, husable⟩ := hall merged hmerged
      exact ⟨_, complete_eq_ok_iff.mpr ⟨merged, endpoint, hmerged, husable, rfl⟩⟩
  case refine_2 =>
    rw [complete_eq_ok_iff]
    constructor
    · rintro ⟨merged, endpoint, hmerged, husable, rfl⟩
      exact ⟨endpoint, usable_withDirect.mpr husable,
        layered_withDirect_iff.mpr ⟨merged, hmerged, rfl⟩⟩
    · rintro ⟨endpoint, husable, hlayered⟩
      obtain ⟨merged, hmerged, rfl⟩ := layered_withDirect_iff.mp hlayered
      exact ⟨merged, endpoint, hmerged, usable_withDirect.mp husable, rfl⟩

end

/-- A file that names an SSH remote, without a password, and a host to reach directly. -/
def homeTree : FileTree where
  files := [("proxy.toml", utf8 ("[remote]\ntype = 'SSH'\naddr = '[::1]'\nuser = 'me'\n" ++
    "[router.direct]\nrules = ['printer']\n"))]

/-- A command line that has the password, and one more host. -/
def homeArguments : Arguments where
  configFile := some "proxy.toml"
  remotePassword := some "secret"
  socksDisabled := true
  directRules := ["intranet"]

/-- The password comes from one layer and the user from the other; the rules are those of both, and
those that loading adds. -/
theorem Config.load_layers_home :
    ∃ file final, ofFile homeTree homeArguments.configFile = .ok file ∧
      load homeTree homeArguments = .ok final ∧ final.remote.user = "me" ∧
      final.router.direct.rules =
        ["printer", "intranet", "::1", "**.in-addr.arpa", "**.ip6.arpa"] := by
  have hfile : ofFile homeTree homeArguments.configFile = .ok
      { remote := { kind := .sshd, address := "[::1]", user := "me" }
        router := { direct := { rules := ["printer"] } } } := by rfl
  obtain ⟨final, hfinal⟩ : ∃ final, load homeTree homeArguments = .ok final := ⟨_, by rfl⟩
  obtain ⟨endpoint, husable, hlayered⟩ := ((load_layers hfile).2 final).mp hfinal
  have haddress : final.remote.address = "[::1]" := hlayered.remote.address.kept rfl
  have hkind : final.remote.kind = .sshd := hlayered.remote.kindKept rfl
  have hhost : endpoint = ⟨"::1", 22⟩ := by
    have hsplit := husable.remote.split
    rw [haddress, hkind] at hsplit
    exact Option.some.inj (hsplit.symm.trans rfl)
  refine ⟨_, final, hfile, hfinal, hlayered.remote.user.kept rfl, ?_⟩
  rw [hlayered.directRules.rules, hhost]
  rfl

end SniffProxy
