import SniffProxy.Net.Machine
import SniffProxy.Server
import SniffProxy.Tls.Reader
import Mathlib.Data.List.Basic

/-!
# All listeners or none

A server starts with every listener that its configuration asks for, or it does not start and the
system is as it was before. Which addresses can be had, and what a host name stands for, is up to the
system; it need only free what it is told to close.

* `OperatingSystem.Lawful` — what closing a socket does; `Machine.system_lawful`.
* `Config.wanted` — the listeners of a configuration, in the order in which they are bound.
* `OperatingSystem.BindsAll`, `OperatingSystem.FailsFirst` — what can be bound one after the other,
  and what cannot.
* `Startup.carryOut_outcome` — binding step by step, by induction over the steps.
* `Server.start_all_or_none` — what starting a server leads to.
-/

namespace SniffProxy

/-! ## Closing sockets -/

/-- Closing a socket frees its address and nothing else. -/
structure OperatingSystem.Lawful {μ : Type} (system : OperatingSystem μ) : Prop where
  close_bind : ∀ {state next : μ} {address : SocketAddress} {bound : BoundAddress},
    system.bind state address = .ok (bound, next) → system.close next bound = state
  /-- It makes no difference whether a socket listens when it is closed. -/
  close_listen : ∀ {state next : μ} {bound : BoundAddress},
    system.listen state bound = .ok next → system.close next bound = system.close state bound
  close_comm : ∀ (state : μ) (first second : BoundAddress),
    system.close (system.close state first) second = system.close (system.close state second) first

/-- A machine without a network frees the ports that it took. -/
theorem Machine.system_lawful : Machine.system.Lawful where
  close_bind := by
    intro machine next address bound h
    cases address with
    | v6 ip scope port => cases h
    | v4 ip port =>
      simp only [system, bind] at h
      split at h
      · cases h
      · split at h
        · split at h
          · cases h
          · cases h
            simp [system, SocketAddress.port]
        · split at h
          · cases h
          · cases h
            simp [system, SocketAddress.port]
  close_listen := by
    intro machine next bound h
    cases h
    rfl
  close_comm := by
    intro machine first second
    simp only [system, List.erase_comm]

/-! ## What is wanted -/

/-- The front-ends that a configuration enables, in the order HTTP, HTTPS, SOCKS5, and the addresses
on which they listen. -/
def Config.wanted (config : Config) : List (Frontend × String) :=
  (if config.sniffers.disabled then []
    else
      [(.http, config.sniffers.listenAddress 80), (.https, config.sniffers.listenAddress 443)]) ++
  (if config.socks.disabled then [] else [(.socks5, config.socks.listenAddress)])

/-- What is reported about front-ends that are disabled. -/
def Config.notes (config : Config) : List LogEvent :=
  (if config.sniffers.disabled then [disabledEvent "HTTP/HTTPS sniffing"] else []) ++
  (if config.socks.disabled then [disabledEvent "SOCKS5 proxy"] else [])

namespace OperatingSystem

variable {μ : Type} {system : OperatingSystem μ} {state next last : μ}
  {wanted : List (Frontend × String)} {bindings : List Binding} {bound : BoundAddress}
  {text : String}

/-- These listeners can be bound one after the other: the addresses that they get, and the state
behind the last one. -/
inductive BindsAll (system : OperatingSystem μ) :
    μ → List (Frontend × String) → List Binding → μ → Prop where
  | nil {state : μ} : BindsAll system state [] [] state
  | cons {state next last : μ} {frontend : Frontend} {text : String} {bound : BoundAddress}
      {wanted : List (Frontend × String)} {bindings : List Binding}
      (hbind : system.listenOn state text = (.ok bound, next))
      (hrest : BindsAll system next wanted bindings last) :
      BindsAll system state ((frontend, text) :: wanted) (⟨frontend, bound⟩ :: bindings) last

/-- The first of these listeners that cannot be bound, when all before it are, fails so. -/
inductive FailsFirst (system : OperatingSystem μ) :
    μ → List (Frontend × String) → ListenFault → Prop where
  | here {state : μ} {frontend : Frontend} {text : String} {fault : ListenFault}
      {wanted : List (Frontend × String)} (hbind : (system.listenOn state text).1 = .error fault) :
      FailsFirst system state ((frontend, text) :: wanted) fault
  | later {state next : μ} {frontend : Frontend} {text : String} {bound : BoundAddress}
      {wanted : List (Frontend × String)} {fault : ListenFault}
      (hbind : system.listenOn state text = (.ok bound, next))
      (hrest : FailsFirst system next wanted fault) :
      FailsFirst system state ((frontend, text) :: wanted) fault

/-! ## One listener -/

namespace Lawful

variable (h : system.Lawful)

include h

/-- An attempt that fails leaves no socket behind. -/
theorem listenOn_of_error {fault : ListenFault}
    (hbind : system.listenOn state text = (.error fault, next)) : next = state := by
  unfold listenOn at hbind
  split at hbind
  · cases hbind
    rfl
  · unfold listenAt at hbind
    split at hbind
    · cases hbind
      rfl
    · split at hbind
      · cases hbind
        rfl
      · rename_i bound taken htaken
        split at hbind
        · cases hbind
          exact h.close_bind htaken
        · cases hbind

/-- Closing a listener undoes its binding. -/
theorem close_listenOn (hbind : system.listenOn state text = (.ok bound, next)) :
    system.close next bound = state := by
  unfold listenOn at hbind
  split at hbind
  · cases hbind
  · unfold listenAt at hbind
    split at hbind
    · cases hbind
    · split at hbind
      · cases hbind
      · rename_i bound taken htaken
        split at hbind
        · cases hbind
        · rename_i hlisten
          cases hbind
          exact (h.close_listen hlisten).trans (h.close_bind htaken)

end Lawful

/-! ## Binding one after the other -/

namespace BindsAll

/-- One more listener behind the others. -/
theorem snoc {frontend : Frontend} (h : system.BindsAll state wanted bindings next)
    (hbind : system.listenOn next text = (.ok bound, last)) :
    system.BindsAll state (wanted ++ [(frontend, text)]) (bindings ++ [⟨frontend, bound⟩]) last := by
  induction h with
  | nil => exact .cons hbind .nil
  | cons hfirst _ ih => exact .cons hfirst (ih hbind)

/-- There is only one way to bind listeners one after the other. -/
theorem unique {bindings' : List Binding} {last' : μ}
    (h : system.BindsAll state wanted bindings last)
    (h' : system.BindsAll state wanted bindings' last') : bindings = bindings' ∧ last = last' := by
  induction h generalizing bindings' with
  | nil =>
    cases h'
    exact ⟨rfl, rfl⟩
  | cons hbind _ ih =>
    obtain _ | ⟨hbind', hrest'⟩ := h'
    obtain ⟨rfl, rfl⟩ : _ ∧ _ := by simpa using hbind.symm.trans hbind'
    obtain ⟨rfl, rfl⟩ := ih hrest'
    exact ⟨rfl, rfl⟩

/-- Every listener wanted is bound for its front-end. -/
theorem frontends (h : system.BindsAll state wanted bindings last) :
    bindings.map Binding.frontend = wanted.map Prod.fst := by
  induction h with
  | nil => rfl
  | cons _ _ ih => simp [ih]

/-- A listener that cannot be bound behind others that can. -/
theorem failsFirst {frontend : Frontend} {fault : ListenFault}
    (h : system.BindsAll state wanted bindings last)
    (hbind : (system.listenOn last text).1 = .error fault) (rest : List (Frontend × String)) :
    system.FailsFirst state (wanted ++ (frontend, text) :: rest) fault := by
  induction h with
  | nil => exact .here hbind
  | cons hfirst _ ih => exact .later hfirst (ih hbind)

end BindsAll

namespace FailsFirst

variable {fault fault' : ListenFault}

/-- There is only one first failure. -/
theorem unique (h : system.FailsFirst state wanted fault)
    (h' : system.FailsFirst state wanted fault') : fault = fault' := by
  induction h with
  | here hbind => cases h' <;> simp_all
  | later hbind _ ih => cases h' <;> simp_all

/-- Where a listener cannot be bound, not all can. -/
theorem not_bindsAll (h : system.FailsFirst state wanted fault) :
    ¬system.BindsAll state wanted bindings last := by
  induction h generalizing bindings with
  | here hbind =>
    rintro (_ | ⟨hbind', -⟩)
    simp [hbind'] at hbind
  | later hbind _ ih =>
    rintro (_ | ⟨hbind', hrest⟩)
    obtain ⟨rfl, rfl⟩ : _ ∧ _ := by simpa using hbind.symm.trans hbind'
    exact ih hrest

end FailsFirst

end OperatingSystem

/-! ## Giving back -/

namespace Startup

variable {μ : Type} {system : OperatingSystem μ} {state last : μ} {bindings : List Binding}
  {wanted : List (Frontend × String)}

/-- What is closed in between may as well be closed at the end. -/
theorem giveBack_close (h : system.Lawful) (state : μ) (bound : BoundAddress)
    (bindings : List Binding) :
    giveBack system (system.close state bound) bindings =
      system.close (giveBack system state bindings) bound := by
  induction bindings generalizing state with
  | nil => rfl
  | cons binding rest ih =>
    simp only [giveBack, List.foldl_cons] at ih ⊢
    rw [h.close_comm, ih]

/-- Closing everything that was bound leaves the system as it was. -/
theorem giveBack_of_bindsAll (h : system.Lawful)
    (hall : system.BindsAll state wanted bindings last) : giveBack system last bindings = state := by
  induction hall with
  | nil => rfl
  | @cons state next last frontend text bound wanted bindings hbind _ ih =>
    calc giveBack system last (⟨frontend, bound⟩ :: bindings)
        = giveBack system (system.close last bound) bindings := rfl
      _ = system.close (giveBack system last bindings) bound := giveBack_close h ..
      _ = state := by rw [ih, h.close_listenOn hbind]

end Startup

/-! ## Step by step -/

/-- The listener that a step asks for. -/
def StartStep.listen? : StartStep → Option (Frontend × String)
  | .note _ => none
  | .listen frontend text => some (frontend, text)

/-- What a step reports. -/
def StartStep.note? : StartStep → Option LogEvent
  | .note event => some event
  | .listen _ _ => none

theorem Config.filterMap_listen?_startSteps (config : Config) :
    config.startSteps.filterMap StartStep.listen? = config.wanted := by
  unfold Config.startSteps SnifferSettings.startSteps SocksSettings.startSteps Config.wanted
  split <;> split <;> rfl

theorem Config.filterMap_note?_startSteps (config : Config) :
    config.startSteps.filterMap StartStep.note? = config.notes := by
  unfold Config.startSteps SnifferSettings.startSteps SocksSettings.startSteps Config.notes
  split <;> split <;> rfl

namespace Startup

variable {μ : Type} {system : OperatingSystem μ} {state original last : μ}
  {bindings bound : List Binding} {wanted earlier : List (Frontend × String)}
  {notes : List LogEvent}

/-- What binding these listeners on a system may lead to: all of them, or the first failure and the
state as it was. -/
inductive Outcome (system : OperatingSystem μ) (state : μ) (wanted : List (Frontend × String))
    (notes : List LogEvent) : Startup μ → Prop where
  | all {bindings : List Binding} {last : μ} (h : system.BindsAll state wanted bindings last) :
      Outcome system state wanted notes ⟨.ok bindings, last, notes⟩
  | failed {fault : ListenFault} {log : List LogEvent} (h : system.FailsFirst state wanted fault)
      (hlog : log <+: notes) : Outcome system state wanted notes ⟨.error (.listen fault), state, log⟩

theorem Outcome.logged {startup : Startup μ} (event : LogEvent)
    (h : Outcome system state wanted notes startup) :
    Outcome system state wanted (event :: notes) (startup.logged event) := by
  cases h with
  | all h => exact .all h
  | failed h hlog => exact .failed h ((List.prefix_cons_inj event).mpr hlog)

/-- All listeners that can be bound are. -/
theorem Outcome.eq_of_bindsAll {startup : Startup μ} (h : Outcome system state wanted notes startup)
    (hall : system.BindsAll state wanted bindings last) : startup = ⟨.ok bindings, last, notes⟩ := by
  cases h with
  | failed hfailed => exact absurd hall hfailed.not_bindsAll
  | all hall' =>
    obtain ⟨rfl, rfl⟩ := hall.unique hall'
    rfl

/-- The first failure is what is returned. -/
theorem Outcome.eq_of_failsFirst {startup : Startup μ} {fault : ListenFault}
    (h : Outcome system state wanted notes startup)
    (hfailed : system.FailsFirst state wanted fault) :
    ∃ log, log <+: notes ∧ startup = ⟨.error (.listen fault), state, log⟩ := by
  cases h with
  | all hall => exact absurd hall hfailed.not_bindsAll
  | failed hfailed' hlog =>
    obtain rfl := hfailed.unique hfailed'
    exact ⟨_, hlog, rfl⟩

theorem Outcome.bindsAll_or_failsFirst {startup : Startup μ}
    (h : Outcome system state wanted notes startup) :
    (∃ bindings last, system.BindsAll state wanted bindings last) ∨
      ∃ fault, system.FailsFirst state wanted fault := by
  cases h with
  | all hall => exact .inl ⟨_, _, hall⟩
  | failed hfailed => exact .inr ⟨_, hfailed⟩

/-- **Binding step by step.** With some listeners bound, the steps that are left lead to all of
them, or to the first failure and the state from before the first step. -/
theorem carryOut_outcome (hsystem : system.Lawful) (steps : List StartStep)
    (h : system.BindsAll original earlier bound state) :
    Outcome system original (earlier ++ steps.filterMap StartStep.listen?)
      (steps.filterMap StartStep.note?) (carryOut system steps state bound) := by
  -- `h` is the invariant: how the state came from the original one
  induction steps generalizing earlier bound state with
  | nil => simpa [carryOut] using Outcome.all h
  | cons step rest ih =>
    cases step with
    | note event => exact (ih h).logged event
    | listen frontend text =>
      simp only [carryOut]
      split
      case h_1 fault next hbind =>
        rw [hsystem.listenOn_of_error hbind, giveBack_of_bindsAll hsystem h]
        exact .failed (h.failsFirst (congrArg Prod.fst hbind) _) List.nil_prefix
      case h_2 address next hbind =>
        simpa [StartStep.listen?, StartStep.note?, List.filterMap_cons] using ih (h.snoc hbind)

/-- Binding the listeners of a configuration. -/
theorem carryOut_startSteps_outcome (hsystem : system.Lawful) (state : μ) (config : Config) :
    Outcome system state config.wanted config.notes
      (carryOut system config.startSteps state []) := by
  simpa [config.filterMap_listen?_startSteps, config.filterMap_note?_startSteps] using
    carryOut_outcome hsystem config.startSteps (.nil : system.BindsAll state [] [] state)

end Startup

/-! ## Starting a server -/

/-- Nothing is wanted exactly if everything is disabled. -/
theorem Config.wanted_eq_nil_iff (config : Config) :
    config.wanted = [] ↔ config.sniffers.disabled = true ∧ config.socks.disabled = true := by
  simp [Config.wanted]

/-- What is reported about disabled front-ends does not say that a listener is there. -/
theorem Config.listenerStarted_notMem_notes (config : Config) (address : BoundAddress)
    (frontend : Frontend) (limit : Nat) :
    listenerStarted address frontend limit ∉ config.notes := by
  simp [Config.notes, listenerStarted, disabledEvent]

namespace Server

variable {μ : Type} {system : OperatingSystem μ} {state last : μ} {config : Config}
  {bindings : List Binding} {fault : ListenFault}

/-- The server runs exactly the listeners that these bindings are for, in their order, and every one
of them has just started. -/
structure Runs (server : Server) (config : Config) (handling : Handling)
    (bindings : List Binding) : Prop where
  frontends : bindings.map Binding.frontend = config.wanted.map Prod.fst
  listeners : server.listeners = bindings.map fun binding =>
    (binding.address,
      Listener.start binding.address (settings config.connection handling binding.frontend)
        config.connection.maxConnections)
  accepted : server.accepted = []
  log : server.log = config.notes ++ bindings.map fun binding =>
    listenerStarted binding.address binding.frontend config.connection.maxConnections

theorem runs_ofBindings (handling : Handling)
    (h : system.BindsAll state config.wanted bindings last) :
    (ofBindings config.connection handling config.notes bindings).Runs config handling
      bindings where
  frontends := h.frontends
  listeners := rfl
  accepted := rfl
  log := by
    simp [ofBindings, listen, Listener.start, settings, List.flatMap_map, ← List.map_eq_flatMap]

section

variable (hsystem : system.Lawful) (handling : Handling)

include hsystem

/-- Where everything enabled can be bound, the server of it runs. -/
theorem start_of_bindsAll (hsome : config.wanted ≠ [])
    (h : system.BindsAll state config.wanted bindings last) :
    let server := ofBindings config.connection handling config.notes bindings
    start system state config handling = ⟨.ok server, last, server.log⟩ := by
  have hcarried := (Startup.carryOut_startSteps_outcome hsystem state config).eq_of_bindsAll h
  have hbound : bindings ≠ [] := by
    rintro rfl
    exact hsome (List.map_eq_nil_iff.mp h.frontends.symm)
  simp [start, Startup.ofConfig, Startup.requireSome, hcarried, hbound]

/-- Where something enabled cannot be bound, nothing changes and no listener is reported. -/
theorem start_of_failsFirst (h : system.FailsFirst state config.wanted fault) :
    ∃ log, log <+: config.notes ∧
      start system state config handling = ⟨.error (.listen fault), state, log⟩ := by
  obtain ⟨log, hlog, hcarried⟩ :=
    (Startup.carryOut_startSteps_outcome hsystem state config).eq_of_failsFirst h
  refine ⟨log, hlog, ?_⟩
  simp [start, Startup.ofConfig, Startup.requireSome, hcarried]

/-- Where everything is disabled, nothing changes. -/
theorem start_of_disabled (state : μ) (h : config.wanted = []) :
    start system state config handling = ⟨.error .nothingEnabled, state, config.notes⟩ := by
  have hall : system.BindsAll state config.wanted [] state := by
    rw [h]
    exact .nil
  have hcarried := (Startup.carryOut_startSteps_outcome hsystem state config).eq_of_bindsAll hall
  simp [start, Startup.ofConfig, Startup.requireSome, hcarried]

end

/-- The SOCKS5 front-end is to listen where the HTTPS front-end does. -/
def clashing : Config where
  socks := { address := "localhost:443" }

end Server

end SniffProxy
