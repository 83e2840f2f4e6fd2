import SniffProxy.Listener.Basic
import SniffProxy.Proofs.Listener.Admission

/-!
# The steps of a listener

Whatever clients, the program and the system do to a listener, its connections move by the steps of
its slots. Who is in service has a slot, and who has a slot is in service; a service ends, with success
or without, exactly when the slot is given back.

* `Listener.Accounted` — the invariant: a history of the slots says how far every connection has come.
* `Listener.Ends` — the ends of a service; `Listener.Ends.accounted`: each is one end in the history,
  and `Listener.ends_of_leaves`: there are no others.
* `Listener.Goes` — the history of a listener goes on to another listener.
* `Listener.Move` — what can be done to a listener; `Listener.Move.goes`.
* `Listener.Reachable` — what becomes of a listener that has just started.
-/

namespace SniffProxy

open Relation (ReflTransGen)
open Slots (reached)

/-- Whether a connection is in service. -/
def Connection.inService (conn : Connection) : Bool :=
  match conn.stage with
  | .sniffing .. | .routed _ => true
  | .outside | .over => false

theorem Connection.isOver_of_inService {conn : Connection} (h : conn.inService = true) :
    conn.isOver = false := by
  unfold Connection.inService at h
  unfold Connection.isOver
  split at h
  · rename_i hstage
    rw [hstage]
  · rename_i hstage
    rw [hstage]
  · cases h
  · cases h

namespace Listener

variable {listener middle later : Listener} {i limit : Nat}
  {history seen : List (Slots.Occurrence Nat)}

/-! ## Connections by their number -/

theorem conn_modify (listener : Listener) (i j : Nat) (change : Connection → Connection) :
    (listener.modify i change).conn j =
      if i = j ∧ j < listener.connections.length then change (listener.conn j)
      else listener.conn j := by
  simp only [conn, modify, List.getD_eq_getElem?_getD, List.getElem?_modify]
  by_cases hj : j < listener.connections.length
  · by_cases hij : i = j <;> simp [hj, hij]
  · simp [hj]

theorem conn_of_length_le (h : listener.connections.length ≤ i) : listener.conn i = {} := by
  simp [conn, List.getElem?_eq_none h]

theorem lt_of_inService (h : (listener.conn i).inService = true) :
    i < listener.connections.length := by
  refine Nat.lt_of_not_le fun hle => ?_
  rw [conn_of_length_le hle] at h
  cases h

theorem conn_modify_of_inService {change : Connection → Connection}
    (h : (listener.conn i).inService = true) :
    (listener.modify i change).conn i = change (listener.conn i) := by
  rw [conn_modify, if_pos ⟨rfl, lt_of_inService h⟩]

theorem inService_modify_live (h : (listener.conn i).inService = true)
    (change : Connection → Live) :
    ((listener.modify i fun conn => { conn with live := change conn }).conn i).inService = true :=
  (congrArg Connection.inService (conn_modify_of_inService h)).trans h

/-- The end of a service concerns its connection alone. -/
theorem inService_conclude (hi : (listener.conn i).inService = true)
    (result : Except ProxyError Unit) (j : Nat) :
    ((listener.conclude i result).conn j).inService = true ↔
      (listener.conn j).inService = true ∧ j ≠ i := by
  have hconn : (listener.conclude i result).conn j =
      (listener.modify i fun conn => { conn with stage := .over }).conn j := rfl
  by_cases hij : i = j
  · subst hij
    simp [hconn, conn_modify_of_inService hi, Connection.inService]
  · simp [hconn, conn_modify, hij, Ne.symm hij]

theorem isOver_conclude (hi : (listener.conn i).inService = true)
    (result : Except ProxyError Unit) (j : Nat) :
    ((listener.conclude i result).conn j).isOver = true ↔
      (listener.conn j).isOver = true ∨ j = i := by
  have hconn : (listener.conclude i result).conn j =
      (listener.modify i fun conn => { conn with stage := .over }).conn j := rfl
  by_cases hij : i = j
  · subst hij
    simp [hconn, conn_modify_of_inService hi, Connection.isOver]
  · simp [hconn, conn_modify, hij, Ne.symm hij]

/-- So does its beginning. -/
theorem inService_letIn (hi : i < listener.connections.length) (j : Nat) :
    ((listener.letIn i).conn j).inService = true ↔
      (listener.conn j).inService = true ∨ j = i := by
  simp only [letIn, conn_modify]
  by_cases hij : i = j
  · subst hij
    rw [if_pos ⟨rfl, hi⟩]
    simp [Connection.inService]
  · rw [if_neg fun h => hij h.1]
    simp only [Ne.symm hij, or_false]
    rfl

theorem isOver_letIn (hi : i < listener.connections.length) (j : Nat) :
    ((listener.letIn i).conn j).isOver = true ↔ (listener.conn j).isOver = true ∧ j ≠ i := by
  simp only [letIn, conn_modify]
  by_cases hij : i = j
  · subst hij
    rw [if_pos ⟨rfl, hi⟩]
    simp [Connection.isOver]
  · rw [if_neg fun h => hij h.1]
    simp only [Ne.symm hij, ne_eq, not_false_eq_true, and_true]
    rfl

/-- The same connections, each as far as in the other listener. -/
structure SameStages (listener later : Listener) : Prop where
  length_eq : later.connections.length = listener.connections.length
  inService_eq : ∀ i, (later.conn i).inService = (listener.conn i).inService
  isOver_eq : ∀ i, (later.conn i).isOver = (listener.conn i).isOver

theorem SameStages.trans (h : SameStages listener middle) (hlater : SameStages middle later) :
    SameStages listener later where
  length_eq := hlater.length_eq.trans h.length_eq
  inService_eq i := (hlater.inService_eq i).trans (h.inService_eq i)
  isOver_eq i := (hlater.isOver_eq i).trans (h.isOver_eq i)

/-- A change after which the connection is as far as before. -/
theorem sameStages_modify {change : Connection → Connection}
    (hservice : (change (listener.conn i)).inService = (listener.conn i).inService)
    (hover : (change (listener.conn i)).isOver = (listener.conn i).isOver) :
    SameStages listener (listener.modify i change) where
  length_eq := by simp [modify]
  inService_eq := by
    intro j
    rw [conn_modify]
    split
    · rename_i heq
      rw [← heq.1, hservice]
    · rfl
  isOver_eq := by
    intro j
    rw [conn_modify]
    split
    · rename_i heq
      rw [← heq.1, hover]
    · rfl

theorem sameStages_report (listener : Listener) (events : List LogEvent) :
    SameStages listener (listener.report events) :=
  ⟨rfl, fun _ => rfl, fun _ => rfl⟩

theorem sameStages_now (listener : Listener) (time : Nat) :
    SameStages listener { listener with now := time } :=
  ⟨rfl, fun _ => rfl, fun _ => rfl⟩

/-- Going on within service moves nobody. -/
theorem sameStages_modify_inService (hi : (listener.conn i).inService = true)
    {change : Connection → Connection} (hchange : (change (listener.conn i)).inService = true) :
    SameStages listener (listener.modify i change) := by
  refine sameStages_modify (hchange.trans hi.symm) ?_
  rw [Connection.isOver_of_inService hi, Connection.isOver_of_inService hchange]

/-- Changing the stream of a connection moves nobody. -/
theorem sameStages_modify_live (listener : Listener) (i : Nat) (change : Connection → Live) :
    SameStages listener (listener.modify i fun conn => { conn with live := change conn }) :=
  sameStages_modify rfl rfl

/-! ## The account of the connections -/

/-- A history of the slots of a listener says how far each of its connections has come. -/
structure Accounted (limit : Nat) (history : List (Slots.Occurrence Nat)) (listener : Listener) :
    Prop where
  run : Slots.Run { limit } history listener.slots
  /-- The connections have arrived one after another. -/
  arrived : reached .arrived history = List.range listener.connections.length
  /-- In service is just who has a slot. -/
  inService_iff : ∀ i, (listener.conn i).inService = true ↔ i ∈ listener.slots.serving
  /-- Over is just whose service has ended, and who had not entered service when the listener
  stopped. -/
  isOver_iff : ∀ i, (listener.conn i).isOver = true ↔ i ∈ reached .finished history ∨
    (.cancelled ∈ history ∧ i ∈ reached .arrived history ∧ i ∉ reached .entered history)

theorem accounted_start (address : BoundAddress) (settings : ListenerSettings) (limit : Nat) :
    Accounted limit [] (.start address settings limit) where
  run := .start
  arrived := rfl
  inService_iff := by simp [start, conn, Connection.inService]
  isOver_iff := by simp [start, conn, Connection.isOver]

namespace Accounted

theorem mem_entered_iff (h : Accounted limit history listener) :
    i ∈ reached .entered history ↔ i ∈ listener.slots.serving ∨ i ∈ reached .finished history := by
  rw [← h.run.orderly.serving_perm.mem_iff, List.mem_append]

theorem services_nodup (h : Accounted limit history listener) :
    (listener.slots.serving ++ reached .finished history).Nodup :=
  h.run.orderly.services_nodup (h.arrived ▸ List.nodup_range)

theorem serving_nodup (h : Accounted limit history listener) : listener.slots.serving.Nodup :=
  (List.nodup_append.mp h.services_nodup).1

/-- Nobody whose service has ended has a slot. -/
theorem notMem_finished (h : Accounted limit history listener)
    (hi : i ∈ listener.slots.serving) : i ∉ reached .finished history := fun hfinished =>
  (List.nodup_append.mp h.services_nodup).2.2 i hi i hfinished rfl

theorem lt_of_arrived (h : Accounted limit history listener) (hi : i ∈ reached .arrived history) :
    i < listener.connections.length :=
  List.mem_range.mp (h.arrived ▸ hi)

theorem lt_of_entered (h : Accounted limit history listener) (hi : i ∈ reached .entered history) :
    i < listener.connections.length :=
  h.lt_of_arrived ((h.run.orderly.entered_prefix.trans h.run.orderly.accepted_prefix).subset hi)

/-- While the listener runs, only those are over whose service has ended. -/
theorem isOver_iff_finished (h : Accounted limit history listener)
    (hrunning : listener.slots.running = true) (i : Nat) :
    (listener.conn i).isOver = true ↔ i ∈ reached .finished history := by
  simp [h.isOver_iff i, h.run.ledger.running_iff.mp hrunning]

/-! ### Steps -/

/-- Nobody gets further but by being accepted. -/
theorem keep (h : Accounted limit history listener) (hsame : SameStages listener later)
    (hrun : Slots.Run listener.slots seen later.slots)
    (hserving : later.slots.serving = listener.slots.serving)
    (hseen : ∀ occurrence ∈ seen, ∃ i, occurrence = .reached i .accepted) :
    Accounted limit (history ++ seen) later := by
  have hnobody : ∀ {milestone : Slots.Milestone}, milestone ≠ .accepted →
      reached milestone seen = [] := by
    intro milestone hother
    refine List.filterMap_eq_nil_iff.mpr fun occurrence hmem => ?_
    obtain ⟨i, rfl⟩ := hseen occurrence hmem
    exact if_neg hother.symm
  have hcancelled : .cancelled ∉ seen := fun hmem => by
    obtain ⟨i, hcancel⟩ := hseen _ hmem
    cases hcancel
  refine ⟨h.run.trans hrun, ?_, fun i => ?_, fun i => ?_⟩
  · simp [hnobody, h.arrived, hsame.length_eq]
  · rw [hsame.inService_eq, hserving, h.inService_iff]
  · simp [hsame.isOver_eq, h.isOver_iff, hnobody, hcancelled]

/-- What moves nobody leaves the history as it is. -/
theorem of_sameStages (h : Accounted limit history listener) (hsame : SameStages listener later)
    (hslots : later.slots = listener.slots) : Accounted limit history later := by
  have hkept : Accounted limit (history ++ []) later :=
    h.keep hsame (hslots ▸ .start) (congrArg Slots.serving hslots) nofun
  simpa using hkept

/-- The conclusion of a service, with success or without, gives its slot back. -/
theorem conclude (h : Accounted limit history listener) (hi : (listener.conn i).inService = true)
    (result : Except ProxyError Unit) :
    Accounted limit (history ++ [.reached i .finished]) (listener.conclude i result) := by
  have hserving : i ∈ listener.slots.serving := (h.inService_iff i).mp hi
  refine ⟨h.run.step (.finish hserving), ?_, fun j => ?_, fun j => ?_⟩
  · simp [h.arrived, Listener.conclude, report, modify]
  · rw [inService_conclude hi, h.inService_iff, and_comm]
    exact h.serving_nodup.mem_erase_iff.symm
  · rw [isOver_conclude hi, h.isOver_iff]
    simp [or_right_comm]

theorem giveUp (h : Accounted limit history listener) (hi : (listener.conn i).inService = true)
    (error : ProxyError) :
    Accounted limit (history ++ [.reached i .finished]) (listener.giveUp i error) :=
  (h.of_sameStages (sameStages_report listener _) rfl).conclude hi (.error error)

theorem answer_of_ended (h : Accounted limit history listener)
    (hi : (listener.conn i).inService = true) {target : HostPort}
    (hended : (listener.settings.responder.answer target (listener.conn i).live).ended = true) :
    Accounted limit (history ++ [.reached i .finished]) (listener.answer i target) := by
  have hanswered : Accounted limit history (listener.modify i fun conn =>
      { conn with live := listener.settings.responder.answer target (listener.conn i).live }) :=
    h.of_sameStages (sameStages_modify_live listener i _) rfl
  simp only [Listener.answer, if_pos hended]
  exact (hanswered.of_sameStages (sameStages_report _ _) rfl).conclude (inService_modify_live hi _) _

/-- A connection that has arrived and had no slot gets one and enters service. -/
theorem letIn (h : Accounted limit history listener) (hsame : SameStages listener later)
    (hrun : Slots.Run listener.slots seen later.slots)
    (hserving : later.slots.serving = listener.slots.serving ++ [i])
    (hrunning : later.slots.running = true) (harrived : reached .arrived seen = [])
    (hfinished : reached .finished seen = []) (hi : i < listener.connections.length) :
    Accounted limit (history ++ seen) (later.letIn i) := by
  have hall := h.run.trans hrun
  have hlater : i < later.connections.length := hsame.length_eq ▸ hi
  have hcancelled : .cancelled ∉ history ++ seen := hall.ledger.running_iff.mp hrunning
  have hbefore : .cancelled ∉ history := fun hmem => hcancelled (List.mem_append_left _ hmem)
  -- whoever gets a slot has not had one
  have hfresh : i ∉ reached .finished history := by
    have hnodup := hall.orderly.services_nodup (by simp [harrived, h.arrived, List.nodup_range])
    simp only [hserving, Slots.reached_append, hfinished, List.append_nil] at hnodup
    exact fun hmem => (List.nodup_append.mp hnodup).2.2 i (by simp) i hmem rfl
  refine ⟨hall, ?_, fun j => ?_, fun j => ?_⟩
  · simp [harrived, h.arrived, Listener.letIn, modify, report, hsame.length_eq]
  · rw [inService_letIn hlater, hsame.inService_eq, h.inService_iff]
    show _ ↔ j ∈ later.slots.serving
    simp [hserving]
  · rw [isOver_letIn hlater, hsame.isOver_eq, h.isOver_iff]
    simp only [Slots.reached_append, hfinished, List.append_nil, hcancelled, hbefore, false_and,
      or_false]
    exact ⟨fun h => h.1, fun hmem => ⟨hmem, fun heq => hfresh (heq ▸ hmem)⟩⟩

end Accounted

/-! ## Histories that go on -/

/-- Whatever history says how far the connections of a listener have come, it goes on to one that says
so of another listener. -/
def Goes (limit : Nat) (listener later : Listener) : Prop :=
  ∀ history, Accounted limit history listener → ∃ seen, Accounted limit (history ++ seen) later

namespace Goes

theorem refl : Goes limit listener listener :=
  fun history h => ⟨[], by simpa using h⟩

theorem trans (h : Goes limit listener middle) (hlater : Goes limit middle later) :
    Goes limit listener later := by
  intro history haccounted
  obtain ⟨seen, hseen⟩ := h history haccounted
  obtain ⟨more, hmore⟩ := hlater _ hseen
  exact ⟨seen ++ more, by simpa using hmore⟩

theorem of_sameStages (h : SameStages listener later) (hslots : later.slots = listener.slots) :
    Goes limit listener later :=
  fun _ haccounted => ⟨[], by simpa using haccounted.of_sameStages h hslots⟩

end Goes

theorem goes_report (listener : Listener) (events : List LogEvent) :
    Goes limit listener (listener.report events) :=
  .of_sameStages (sameStages_report listener events) rfl

theorem goes_to_time (listener : Listener) (time : Nat) :
    Goes limit listener { listener with now := time } :=
  .of_sameStages (sameStages_now listener time) rfl

theorem goes_modify_live (listener : Listener) (i : Nat) (change : Connection → Live) :
    Goes limit listener (listener.modify i fun conn => { conn with live := change conn }) :=
  .of_sameStages (sameStages_modify_live listener i change) rfl

/-! ## The ends of a service -/

/-- The stream of a connection that goes on to its destination. -/
def routedLive (listener : Listener) (target : HostPort) (peek : Peek) (live : Live) : Live :=
  listener.settings.responder.start target { live with inbox := peek.buffer ++ live.inbox }

/-- The service of a connection ends: its front-end fails, its response is over, now or as soon as it is
routed, or its time is. -/
inductive Ends (listener : Listener) (i : Nat) : Listener → Prop where
  | fail {deadline : Nat} {rest : Session (Except ProxyError HostPort × Peek)} {error : ProxyError}
    {peek : Peek} {live : Live} {log : List LogEvent}
    (stage : (listener.conn i).stage = .sniffing deadline rest)
    (result : rest.advance (listener.conn i).live = .done (.error error, peek) live log) :
    Ends listener i (listener.progress i)
  | serve {target : HostPort} (stage : (listener.conn i).stage = .routed target)
    (ended : (listener.settings.responder.answer target (listener.conn i).live).ended = true) :
    Ends listener i (listener.progress i)
  | serveAtOnce {deadline : Nat} {rest : Session (Except ProxyError HostPort × Peek)}
    {target : HostPort} {peek : Peek} {live : Live} {log : List LogEvent}
    (stage : (listener.conn i).stage = .sniffing deadline rest)
    (result : rest.advance (listener.conn i).live = .done (.ok target, peek) live log)
    (ended : (listener.settings.responder.answer target
      (listener.routedLive target peek live)).ended = true) :
    Ends listener i (listener.progress i)
  | expire {deadline : Nat} {rest : Session (Except ProxyError HostPort × Peek)}
    (stage : (listener.conn i).stage = .sniffing deadline rest) (late : deadline ≤ listener.now) :
    Ends listener i (listener.expire i)

section

variable {deadline : Nat} {rest : Session (Except ProxyError HostPort × Peek)} {target : HostPort}
  {peek : Peek} {live : Live} {log : List LogEvent}

/-- A connection that has just been routed, with the stream that its response begins with. -/
theorem progress_of_found (hstage : (listener.conn i).stage = .sniffing deadline rest)
    (hresult : rest.advance (listener.conn i).live = .done (.ok target, peek) live log) :
    ∃ routed : Listener, listener.progress i = routed.answer i target ∧
      SameStages listener routed ∧ routed.slots = listener.slots ∧
      routed.settings = listener.settings ∧ (routed.conn i).inService = true ∧
      (routed.conn i).live = listener.routedLive target peek live := by
  have hi : (listener.conn i).inService = true := by simp [Connection.inService, hstage]
  let sniffed := (listener.report log).report [.sniffed listener.settings.frontend.name target]
  have hsniffed : (sniffed.conn i).inService = true := hi
  let routed := sniffed.modify i fun conn =>
    { conn with stage := .routed target, live := listener.routedLive target peek live }
  have hprogress : listener.progress i = routed.answer i target := by
    simp only [progress, hstage, hresult]
    rfl
  have hconn : routed.conn i = { sniffed.conn i with
      stage := .routed target, live := listener.routedLive target peek live } :=
    conn_modify_of_inService hsniffed
  refine ⟨routed, hprogress, ?_, rfl, rfl, ?_, ?_⟩
  · exact ((sameStages_report listener log).trans (sameStages_report _ _)).trans
      (sameStages_modify_inService hsniffed rfl)
  · exact congrArg Connection.inService hconn
  · exact congrArg Connection.live hconn

end

theorem sameStages_answer {target : HostPort}
    (hmore : ¬ (listener.settings.responder.answer target (listener.conn i).live).ended = true) :
    SameStages listener (listener.answer i target) ∧
      (listener.answer i target).slots = listener.slots := by
  simp only [answer, if_neg hmore]
  exact ⟨sameStages_modify_live listener i _, rfl⟩

/-- **A connection in service goes on, or its service ends.** -/
theorem progress_cases (hi : (listener.conn i).inService = true) :
    (SameStages listener (listener.progress i) ∧ (listener.progress i).slots = listener.slots) ∨
      Ends listener i (listener.progress i) := by
  match hstage : (listener.conn i).stage with
  | .outside => simp [Connection.inService, hstage] at hi
  | .over => simp [Connection.inService, hstage] at hi
  | .routed target =>
    by_cases hended : (listener.settings.responder.answer target (listener.conn i).live).ended = true
    · exact .inr (.serve hstage hended)
    · refine .inl ?_
      simp only [progress, hstage]
      exact sameStages_answer hended
  | .sniffing deadline rest =>
    match hresult : rest.advance (listener.conn i).live with
    | .blocked rest live log =>
      refine .inl ?_
      have hreported : ((listener.report log).conn i).inService = true := hi
      simp only [progress, hstage, hresult]
      exact ⟨(sameStages_report listener log).trans (sameStages_modify_inService hreported rfl), rfl⟩
    | .done (.error error, peek) live log => exact .inr (.fail hstage hresult)
    | .done (.ok target, peek) live log =>
      by_cases hended : (listener.settings.responder.answer target
          (listener.routedLive target peek live)).ended = true
      · exact .inr (.serveAtOnce hstage hresult hended)
      · obtain ⟨routed, hprogress, hsame, hslots, hsettings, -, hlive⟩ :=
          progress_of_found hstage hresult
        rw [← hsettings, ← hlive] at hended
        obtain ⟨hanswered, hkept⟩ := sameStages_answer hended
        rw [hprogress]
        exact .inl ⟨hsame.trans hanswered, hkept.trans hslots⟩

theorem expire_cases (listener : Listener) (i : Nat) :
    listener.expire i = listener ∨ Ends listener i (listener.expire i) := by
  match hstage : (listener.conn i).stage with
  | .outside => simp [expire, deadline?, hstage]
  | .over => simp [expire, deadline?, hstage]
  | .routed target => simp [expire, deadline?, hstage]
  | .sniffing deadline rest =>
    by_cases hlate : deadline ≤ listener.now
    · exact .inr (.expire hstage hlate)
    · simp [expire, deadline?, hstage, hlate]

/-- A connection leaves service in no other way. -/
theorem ends_of_leaves (hlater : later = listener.progress i ∨ later = listener.expire i)
    (hi : (listener.conn i).inService = true) (hleft : (later.conn i).inService = false) :
    Ends listener i later := by
  rcases hlater with rfl | rfl
  · obtain ⟨hsame, -⟩ | hends := progress_cases hi
    · rw [hsame.inService_eq, hi] at hleft
      cases hleft
    · exact hends
  · obtain hkept | hends := expire_cases listener i
    · rw [hkept, hi] at hleft
      cases hleft
    · exact hends

namespace Ends

/-- **Whatever ends a service** gives exactly one slot back, that of its connection. -/
theorem accounted (h : Ends listener i later) (haccounted : Accounted limit history listener) :
    Accounted limit (history ++ [.reached i .finished]) later := by
  cases h with
  | @fail deadline rest error peek live log stage result =>
    have hi : ((listener.report log).conn i).inService = true :=
      show (listener.conn i).inService = true by simp [Connection.inService, stage]
    have hreported : Accounted limit history (listener.report log) :=
      haccounted.of_sameStages (sameStages_report listener log) rfl
    simp only [progress, stage, result]
    exact (hreported.of_sameStages (sameStages_modify_live _ i _) rfl).giveUp
      (inService_modify_live hi _) error
  | serve stage ended =>
    simp only [progress, stage]
    exact haccounted.answer_of_ended (by simp [Connection.inService, stage]) ended
  | serveAtOnce stage result ended =>
    obtain ⟨routed, hprogress, hsame, hslots, hsettings, hi, hlive⟩ := progress_of_found stage result
    rw [← hsettings, ← hlive] at ended
    rw [hprogress]
    exact (haccounted.of_sameStages hsame hslots).answer_of_ended hi ended
  | expire stage late =>
    simp only [Listener.expire, deadline?, stage, if_pos late]
    exact haccounted.giveUp (by simp [Connection.inService, stage]) _

theorem length_serving (h : Ends listener i later) (haccounted : Accounted limit history listener) :
    later.slots.serving.length + 1 = listener.slots.serving.length := by
  have hbefore := haccounted.run.orderly.serving_perm.length_eq
  have hafter := (h.accounted haccounted).run.orderly.serving_perm.length_eq
  simp only [Slots.reached_append, Slots.reached_cons_reached, Slots.reached_nil, List.length_append,
    List.length_singleton, List.length_nil, reduceIte, reduceCtorEq] at hbefore hafter
  omega

theorem goes (h : Ends listener i later) : Goes limit listener later :=
  fun _ haccounted => ⟨_, h.accounted haccounted⟩

end Ends

theorem goes_progress (listener : Listener) (i : Nat) :
    Goes limit listener (listener.progress i) := by
  by_cases hi : (listener.conn i).inService = true
  · obtain ⟨hsame, hslots⟩ | hends := progress_cases hi
    · exact .of_sameStages hsame hslots
    · exact hends.goes
  · -- who is not in service does not go on
    have hstill : listener.progress i = listener := by
      unfold progress
      split
      · rfl
      · rfl
      · rename_i hstage
        simp [Connection.inService, hstage] at hi
      · rename_i hstage
        simp [Connection.inService, hstage] at hi
    rw [hstill]
    exact .refl

/-! ## Settling -/

theorem goes_promote (hready : listener.slots.ready? = some i) :
    Goes limit listener (enter { listener with slots := listener.slots.promote } i) := by
  obtain ⟨hrunning, -, hwaiting⟩ := Slots.ready?_eq_some.mp hready
  have hpromoted := Slots.promote_of_ready? hready
  have hentered : Goes limit listener
      (Listener.letIn { listener with slots := listener.slots.promote } i) := by
    intro history h
    have haccepted : i ∈ reached .accepted history := by
      simp [h.run.ledger.entries hrunning, hwaiting]
    exact ⟨_, h.letIn ⟨rfl, fun _ => rfl, fun _ => rfl⟩ (.single (.promote hready))
      (by simp [hpromoted]) (by simp [hpromoted, hrunning]) rfl rfl
      (h.lt_of_arrived (h.run.ledger.accepted_prefix.subset haccepted))⟩
  exact hentered.trans (goes_progress _ i)

theorem goes_accept (hnext : listener.slots.next? = some i) :
    Goes limit listener (listener.accept i) := by
  obtain ⟨hrunning, -, hbacklog⟩ := Slots.next?_eq_some hnext
  have hsame : ∀ slots, SameStages listener
      { (listener.modify i fun conn => { conn with options := some {} }).report [connectionNew] with
        slots } := by
    intro slots
    have hopened : SameStages listener
        (listener.modify i fun conn => { conn with options := some {} }) :=
      sameStages_modify rfl rfl
    exact ⟨hopened.length_eq, hopened.inService_eq, hopened.isOver_eq⟩
  intro history h
  have harrivals := h.run.ledger.arrivals hrunning
  have hmem : i ∈ listener.slots.backlog := by
    rw [hbacklog]
    exact List.mem_cons_self
  change ∃ seen, Accounted limit (history ++ seen)
    (if i ∈ listener.slots.accept.serving then _ else _)
  by_cases hlimit : listener.slots.limit = 0
  · -- without a limit the connection enters service at once
    have haccepted := Slots.accept_of_unlimited hnext hlimit
    rw [if_pos (by simp [haccepted])]
    have hentered := h.letIn (i := i) (hsame listener.slots.accept) (.single (.enter hnext hlimit))
      (by simp [haccepted]) (by simp [haccepted, hrunning]) rfl rfl
      (h.lt_of_arrived (by simp [harrivals, hmem]))
    obtain ⟨more, hmore⟩ := goes_progress _ i _ hentered
    exact ⟨_, List.append_assoc .. ▸ hmore⟩
  · have haccepted := Slots.accept_of_limited hnext hlimit
    have hwaits : i ∉ listener.slots.serving := fun hserving => by
      have hbefore : i ∈ reached .accepted history :=
        h.run.ledger.entered_prefix.subset (h.mem_entered_iff.mpr (.inl hserving))
      have hnodup : (reached .accepted history ++ listener.slots.backlog).Nodup :=
        harrivals ▸ h.arrived ▸ List.nodup_range
      exact (List.nodup_append.mp hnodup).2.2 i hbefore i hmem rfl
    rw [if_neg (by simpa [haccepted] using hwaits)]
    have hserving : listener.slots.accept.serving = listener.slots.serving := by simp [haccepted]
    exact ⟨_, h.keep (hsame listener.slots.accept) (.single (.accept hnext hlimit)) hserving
      (by simp)⟩

theorem goes_settleIn (fuel : Nat) (listener : Listener) :
    Goes limit listener (settleIn fuel listener) := by
  induction fuel generalizing listener with
  | zero => exact .refl
  | succ fuel ih =>
    unfold settleIn
    split
    · rename_i hready
      exact (goes_promote hready).trans (ih _)
    · rename_i hnext
      exact (goes_accept hnext).trans (ih _)
    · exact .refl

theorem goes_settle (listener : Listener) : Goes limit listener listener.settle :=
  goes_settleIn _ listener

/-! ## Time -/

theorem goes_expire (listener : Listener) (i : Nat) : Goes limit listener (listener.expire i) := by
  obtain hkept | hends := expire_cases listener i
  · rw [hkept]
    exact .refl
  · exact hends.goes

theorem goes_foldl_expire (numbers : List Nat) (listener : Listener) :
    Goes limit listener (numbers.foldl expire listener) := by
  induction numbers generalizing listener with
  | nil => exact .refl
  | cons i numbers ih => exact (goes_expire listener i).trans (ih _)

theorem goes_passUntil (listener : Listener) (time : Nat) :
    Goes limit listener (listener.passUntil time) :=
  ((goes_to_time listener time).trans (goes_foldl_expire _ _)).trans (goes_settle _)

theorem goes_waitIn {holds : Listener → Bool} {fuel : Nat}
    (hwait : waitIn holds fuel listener = some later) : Goes limit listener later := by
  induction fuel generalizing listener with
  | zero =>
    unfold waitIn at hwait
    split at hwait <;> cases hwait
    exact .refl
  | succ fuel ih =>
    unfold waitIn at hwait
    split at hwait
    · cases hwait
      exact .refl
    · split at hwait
      · exact (goes_passUntil _ _).trans (ih hwait)
      · cases hwait

theorem goes_waitFor {holds : Listener → Bool} (hwait : listener.waitFor holds = some later) :
    Goes limit listener later :=
  goes_waitIn hwait

/-! ## What clients, the program and the system do -/

/-- What can be done to a listener. -/
inductive Move : Listener → Listener → Prop where
  | connect {listener later : Listener} (faults : OptionFaults) {i : Nat}
    (happens : listener.connect faults = some (later, i)) : Move listener later
  | send {listener later : Listener} {i : Nat} {bytes : Bytes}
    (happens : listener.send i bytes = some later) : Move listener later
  | receive {listener later : Listener} {i count : Nat} {received : Option Bytes}
    (happens : listener.receive i count = some (later, received)) : Move listener later
  | isSilent (listener : Listener) (i : Nat) : Move listener (listener.isSilent i).1
  | finish {listener later : Listener} {i : Nat} {received : Bytes}
    (happens : listener.finish i = some (later, received)) : Move listener later
  | drop (listener : Listener) (i : Nat) : Move listener (listener.drop i)
  | failAccept (listener : Listener) (error : IoError) : Move listener (listener.failAccept error)
  | cancel (listener : Listener) : Move listener listener.cancel

theorem goes_arrive (faults : OptionFaults) (hrunning : listener.slots.running = true) :
    Goes limit listener
      { listener with
        connections := listener.connections ++ [({ faults } : Connection)]
        slots := listener.slots.arrive listener.connections.length } := by
  -- a connection that has just arrived is as far as one that has not
  have hconn : ∀ j, ((listener.connections ++ [({ faults } : Connection)]).getD j {}).inService =
      (listener.conn j).inService ∧
      ((listener.connections ++ [({ faults } : Connection)]).getD j {}).isOver =
        (listener.conn j).isOver := by
    intro j
    rcases Nat.lt_trichotomy j listener.connections.length with hj | rfl | hj
    · simp [conn, List.getElem?_append_left hj]
    · simp [conn, Connection.inService, Connection.isOver]
    · have hnone : (listener.connections ++ [({ faults } : Connection)])[j]? = none := by
        simpa using Nat.succ_le_of_lt hj
      simp [conn, hnone, Nat.le_of_lt hj]
  intro history h
  have harrived := h.run.step (.arrive listener.connections.length hrunning)
  have hcancelled : .cancelled ∉ history ++ [.reached listener.connections.length .arrived] :=
    harrived.ledger.running_iff.mp hrunning
  refine ⟨_, harrived, ?_, fun j => ?_, fun j => ?_⟩
  · simp [h.arrived, List.range_succ]
  · exact (hconn j).1 ▸ h.inService_iff j
  · refine ((hconn j).2 ▸ h.isOver_iff_finished hrunning j).trans ?_
    simpa using fun hmem : Slots.Occurrence.cancelled ∈ history =>
      absurd (List.mem_append_left _ hmem) hcancelled

theorem goes_connect {faults : OptionFaults}
    (hconnect : listener.connect faults = some (later, i)) : Goes limit listener later := by
  simp only [connect] at hconnect
  split at hconnect
  · rename_i hrunning
    cases hconnect
    exact (goes_arrive faults hrunning).trans (goes_settle _)
  · cases hconnect

theorem goes_touch (listener : Listener) (i : Nat) (change : Live → Live) :
    Goes limit listener (listener.touch i change) :=
  ((goes_modify_live _ i _).trans (goes_progress _ i)).trans (goes_settle _)

theorem goes_send {bytes : Bytes} (hsend : listener.send i bytes = some later) :
    Goes limit listener later := by
  unfold send at hsend
  split at hsend <;> cases hsend
  exact goes_touch _ i _

theorem goes_receive {count : Nat} {received : Option Bytes}
    (hreceive : listener.receive i count = some (later, received)) : Goes limit listener later := by
  simp only [receive] at hreceive
  split at hreceive
  · cases hreceive
  · rename_i waited hwait
    split at hreceive <;> cases hreceive
    · exact (goes_waitFor hwait).trans (goes_modify_live _ i _)
    · exact goes_waitFor hwait

theorem goes_isSilent (listener : Listener) (i : Nat) :
    Goes limit listener (listener.isSilent i).1 := by
  simp only [isSilent]
  split
  · rename_i waited hwait
    split
    · exact goes_waitFor hwait
    · exact (goes_waitFor hwait).trans (goes_to_time _ _)
  · exact goes_to_time _ _

theorem goes_finish {received : Bytes} (hfinish : listener.finish i = some (later, received)) :
    Goes limit listener later := by
  unfold finish at hfinish
  split at hfinish
  · cases hfinish
  · rename_i waited hwait
    cases hfinish
    exact ((goes_touch _ i Live.close).trans (goes_waitFor hwait)).trans (goes_modify_live _ i _)

theorem goes_failAccept (listener : Listener) (error : IoError) :
    Goes limit listener (listener.failAccept error) := by
  unfold failAccept
  split
  · exact goes_report _ _
  · exact .refl

theorem isOver_shut (conn : Connection) : (Connection.shut conn).isOver = !conn.inService := by
  obtain ⟨stage, live, options, faults⟩ := conn
  cases stage <;> rfl

theorem inService_shut (conn : Connection) : (Connection.shut conn).inService = conn.inService := by
  obtain ⟨stage, live, options, faults⟩ := conn
  cases stage <;> rfl

/-- The stop of a listener leaves those in service there, and ends all others. -/
theorem inService_cancel (listener : Listener) (i : Nat) :
    (listener.cancel.conn i).inService = (listener.conn i).inService := by
  unfold cancel
  split
  · by_cases hi : i < listener.connections.length <;> simp [conn, hi, inService_shut]
  · rfl

theorem isOver_cancel (hrunning : listener.slots.running = true) (i : Nat) :
    (listener.cancel.conn i).isOver = true ↔
      i < listener.connections.length ∧ ¬ (listener.conn i).inService = true := by
  rw [cancel, if_pos hrunning]
  by_cases hi : i < listener.connections.length
  · simp [conn, hi, isOver_shut]
  · simp [conn, hi, Connection.isOver]

theorem goes_cancel (listener : Listener) : Goes limit listener listener.cancel := by
  by_cases hrunning : listener.slots.running = true
  case neg =>
    rw [cancel, if_neg hrunning]
    exact .refl
  intro history h
  have hseen : ∀ milestone : Slots.Milestone,
      reached milestone (history ++ [Slots.Occurrence.cancelled]) = reached milestone history := by
    simp
  have hslots : listener.cancel.slots = listener.slots.cancel := by rw [cancel, if_pos hrunning]
  refine ⟨[.cancelled], ?_, ?_, fun j => ?_, fun j => ?_⟩
  · rw [hslots]
    exact h.run.step (.cancel hrunning)
  · simpa [cancel, hrunning] using h.arrived
  · rw [inService_cancel, hslots]
    exact h.inService_iff j
  · rw [isOver_cancel hrunning, h.inService_iff, hseen, hseen, hseen]
    constructor
    · rintro ⟨hj, hserving⟩
      by_cases hentered : j ∈ reached .entered history
      · exact .inl ((h.mem_entered_iff.mp hentered).resolve_left hserving)
      · exact .inr ⟨by simp, by simpa [h.arrived] using hj, hentered⟩
    · rintro (hfinished | ⟨-, harrived, hentered⟩)
      · exact ⟨h.lt_of_entered (h.mem_entered_iff.mpr (.inr hfinished)),
          fun hserving => h.notMem_finished hserving hfinished⟩
      · exact ⟨h.lt_of_arrived harrived,
          fun hserving => hentered (h.mem_entered_iff.mpr (.inl hserving))⟩

/-- **Whatever is done to a listener**, its history goes on. -/
theorem Move.goes (h : Move listener later) : Goes limit listener later := by
  cases h with
  | connect faults happens => exact goes_connect happens
  | send happens => exact goes_send happens
  | receive happens => exact goes_receive happens
  | isSilent i => exact goes_isSilent listener i
  | finish happens => exact goes_finish happens
  | drop i => exact goes_touch listener i _
  | failAccept error => exact goes_failAccept listener error
  | cancel => exact goes_cancel listener

/-! ## Every listener -/

/-- What becomes of a listener that has just started. -/
def Reachable (address : BoundAddress) (settings : ListenerSettings) (limit : Nat) :
    Listener → Prop :=
  ReflTransGen Move (.start address settings limit)

/-- Every listener has a history. -/
theorem Reachable.accounted {address : BoundAddress} {settings : ListenerSettings}
    (h : Reachable address settings limit listener) : ∃ history, Accounted limit history listener := by
  induction h with
  | refl => exact ⟨[], accounted_start address settings limit⟩
  | tail _ hmove ih =>
    obtain ⟨history, haccounted⟩ := ih
    obtain ⟨seen, hseen⟩ := hmove.goes history haccounted
    exact ⟨_, hseen⟩

end Listener

end SniffProxy
