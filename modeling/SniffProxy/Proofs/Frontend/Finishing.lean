import SniffProxy.Proofs.Frontend.Serving
import SniffProxy.Proofs.Stream.Idle
import SniffProxy.Tls.Reader

/-!
# Every connection comes to an end

No peer can keep a connection for ever. Before the relay the deadline cuts off a client that never
states its destination; in the relay the idle check cuts off a pair on which nothing moves, be it
silent or stalled. Only a dialer that never answers could; one that answers late delays the end.

* `Frontend.await_timedOut`, `Frontend.await_inTime` — what the deadline does to the first phase.
* `Frontend.serve_finishes` — a connection ends, when it does at the latest, and what the deadline
  has to do with it.
-/

namespace SniffProxy

namespace Frontend

/-! ## The deadline of the first phase -/

/-- The first phase of a connection is over by a time, if nobody cuts it off. -/
def SniffedBy (frontend : Frontend) (acceptor : Tls.Acceptor) (client : Script) (limit : Nat) :
    Prop :=
  ∃ value time rest log,
    (frontend.sniff acceptor).run none 0 client = .finished value time rest log ∧ time ≤ limit

variable {frontend : Frontend} {acceptor : Tls.Acceptor} {timeout limit : Nat} {client : Script}

theorem await_time_le : (frontend.await acceptor timeout client).time ≤ timeout := by
  unfold await
  split
  · exact Session.run_time_le_deadline (Nat.zero_le timeout) ‹_›
  · exact Session.run_time_le_deadline (Nat.zero_le timeout) ‹_›
  · exact Nat.le_refl timeout

/-- **A first phase that is not over when the deadline comes** is cut off there. -/
theorem await_timedOut (h : ¬ frontend.SniffedBy acceptor client timeout) :
    (frontend.await acceptor timeout client).target =
        .error (.sniffParse (.timedOut frontend.phase)) ∧
      (frontend.await acceptor timeout client).time = timeout := by
  have hlate : ∀ value time rest log,
      (frontend.sniff acceptor).run none 0 client = .finished value time rest log →
        timeout < time := by
    intro value time rest log hrun
    exact Nat.lt_of_not_le fun htime => h ⟨value, time, rest, log, hrun, htime⟩
  obtain ⟨rest, log, hrun⟩ := Session.run_late (Nat.zero_le timeout) hlate
  simp only [await, hrun, and_self]

/-- **A first phase that is over before** does not see the deadline. -/
theorem await_inTime {time other : Nat} (h : frontend.SniffedBy acceptor client time)
    (htimeout : time ≤ timeout) (hother : time ≤ other) :
    frontend.await acceptor other client = frontend.await acceptor timeout client := by
  obtain ⟨⟨found, peek⟩, ended, rest, log, hrun, hended⟩ := h
  have hfirst := Session.run_inTime hrun (Nat.le_trans hended htimeout)
  have hsecond := Session.run_inTime hrun (Nat.le_trans hended hother)
  simp only [await, hfirst, hsecond]
  cases found <;> rfl

/-! ## The whole connection -/

section

variable (frontend : Frontend) (env : Environment) (router : Router) (dialers : Dialers Script)
  (limits : RelayLimits) (timeout : Nat) (client : Script)

/-- A connection that is not relayed is over with its first phase, or with what the dialer that was
asked has answered. -/
theorem serve_finishedAt_cases :
    (frontend.serve env router dialers limits timeout client).finishedAt =
        (frontend.await env.acceptor timeout client).time ∨
      ∃ via request,
        (via, request) ∈ (frontend.serve env router dialers limits timeout client).requests ∧
        ((frontend.serve env router dialers limits timeout client).finishedAt =
            (frontend.await env.acceptor timeout client).time + (dialers via request).took ∨
          ∃ outbound took log, dialers via request = .opened outbound took log ∧
            (frontend.serve env router dialers limits timeout client).finishedAt =
              (Relay.run env.turns limits.bufferSize limits.idleTimeout
                ((frontend.await env.acceptor timeout client).time + took)
                (frontend.await env.acceptor timeout client).peek
                (frontend.await env.acceptor timeout client).client outbound).finishedAt) := by
  obtain ⟨error, -, hserve⟩ | ⟨target, -, hdialed⟩ :=
    serve_cases frontend env router dialers limits timeout client
  · exact .inl (congrArg Service.finishedAt hserve)
  obtain ⟨hblocked, -⟩ | ⟨via, hdialing, hrequests⟩ :=
    router.dial_cases dialers (dialRequest target)
  · -- a router that refuses by itself takes no time for it
    rw [hblocked] at hdialed
    obtain ⟨_, _, _, hopened, -⟩ | ⟨_, _, _, _, -, hserve⟩ | ⟨hpending, -⟩ := hdialed
    · cases hopened
    · refine .inl ?_
      rw [hserve]
      simp only [Sniffed.undialed, hblocked, Dialing.took, Nat.add_zero]
    · cases hpending
  · refine .inr ⟨via, dialRequest target, ?_⟩
    obtain ⟨outbound, took, log, hopened, hserve⟩ | ⟨_, _, _, _, -, hserve⟩ | ⟨-, hserve⟩ := hdialed
    · rw [hserve]
      refine ⟨by simp only [relay, hrequests, List.mem_singleton], .inr ⟨outbound, took, log, ?_⟩⟩
      exact ⟨hdialing.symm.trans hopened, by simp only [relay, hopened, Dialing.took]⟩
    · rw [hserve, ← hdialing]
      exact ⟨by simp only [Sniffed.undialed, hrequests, List.mem_singleton], .inl rfl⟩
    · rw [hserve, ← hdialing]
      exact ⟨by simp only [Sniffed.undialed, hrequests, List.mem_singleton], .inl rfl⟩

variable {dialers} in
/-- A connection whose dialers answer has a result. -/
theorem serve_result (hdialers : ∀ via request, dialers via request ≠ .pending) :
    ∃ result, (frontend.serve env router dialers limits timeout client).result = some result := by
  obtain ⟨error, -, hserve⟩ | ⟨target, -, ⟨outbound, took, log, -, hserve⟩ |
      ⟨error, closed, took, log, -, hserve⟩ | ⟨hpending, -⟩⟩ :=
    serve_cases frontend env router dialers limits timeout client
  · exact ⟨_, congrArg Service.result hserve⟩
  · exact ⟨_, congrArg Service.result hserve⟩
  · exact ⟨_, congrArg Service.result hserve⟩
  · obtain ⟨hblocked, -⟩ | ⟨via, hdialing, -⟩ := router.dial_cases dialers (dialRequest target)
    · rw [hpending] at hblocked
      cases hblocked
    · exact absurd (hdialing.symm.trans hpending) (hdialers via _)

end

/-- **Serving never hangs on its peers.** Whatever the client and the outbound stream deliver, and
whatever they accept, whoever reads client hellos and whoever's turn is first, a connection whose
dialers answer has a result. If nothing comes any more after some time, and the dialer that is asked
has answered by then, it is over before the idle seconds and one period of the idle check have passed
since then. A client whose destination is not known when the deadline comes is given up at this
moment, and nobody dials; if it is known by then, the deadline changes nothing. -/
theorem serve_finishes {router : Router} {dialers : Dialers Script}
    (hdialers : ∀ via request, dialers via request ≠ .pending) (frontend : Frontend)
    (env : Environment) (limits : RelayLimits) (timeout : Nat) (client : Script) :
    (∃ result, (frontend.serve env router dialers limits timeout client).result = some result) ∧
    (∀ limit, timeout ≤ limit → client.DueBy limit →
      (∀ via request,
        (via, request) ∈ (frontend.serve env router dialers limits timeout client).requests →
        timeout + (dialers via request).took ≤ limit ∧
          ∀ outbound took log, dialers via request = .opened outbound took log →
            outbound.DueBy limit) →
      (frontend.serve env router dialers limits timeout client).finishedAt <
        limit + 1000 * idleSeconds limits.idleTimeout + idlePeriod limits.idleTimeout) ∧
    (¬ frontend.SniffedBy env.acceptor client timeout →
      (frontend.serve env router dialers limits timeout client).result =
        some (.error (.sniffParse (.timedOut frontend.phase))) ∧
      (frontend.serve env router dialers limits timeout client).finishedAt = timeout ∧
      (frontend.serve env router dialers limits timeout client).requests = []) ∧
    (∀ time, frontend.SniffedBy env.acceptor client time → time ≤ timeout →
      ∀ other, time ≤ other →
        frontend.serve env router dialers limits other client =
          frontend.serve env router dialers limits timeout client) := by
  refine ⟨serve_result frontend env router limits timeout client hdialers, ?_, ?_, ?_⟩
  · intro limit htimeout hclient houtbound
    have hsniffed : (frontend.await env.acceptor timeout client).time ≤ timeout := await_time_le
    have hpositive := idlePeriod_pos limits.idleTimeout
    obtain hended | ⟨via, request, hasked, hended⟩ :=
      serve_finishedAt_cases frontend env router dialers limits timeout client
    · omega
    obtain ⟨htook, hdue⟩ := houtbound via request hasked
    obtain hended | ⟨outbound, took, log, hopened, hended⟩ := hended
    · omega
    · have hrest : (frontend.await env.acceptor timeout client).client.DueBy limit := by
        rw [await_client]
        exact Session.run_dueBy _ 0 hclient
      have hstart : (frontend.await env.acceptor timeout client).time + took ≤ limit := by
        rw [hopened] at htook
        exact Nat.le_trans (Nat.add_le_add_right hsniffed took) htook
      rw [hended]
      exact Relay.run_finishedAt_lt _ _ _ _ hstart hrest (hdue outbound took log hopened)
  · intro hlate
    obtain ⟨htarget, htime⟩ := await_timedOut hlate
    simp only [serve, htarget]
    exact ⟨rfl, htime, rfl⟩
  · intro time hsniffed htimeout other hother
    simp only [serve, await_inTime hsniffed htimeout hother]

/-- A client that sends the head of its request byte by byte, slower and slower. -/
def drippingClient : Script where
  events := [⟨300, .data (utf8 "G")⟩, ⟨900, .data (utf8 "E")⟩, ⟨1700, .data (utf8 "T")⟩]
  afterwards := .silent

/-- It is given up when the second is over. -/
theorem serve_finishes_dripping :
    let service := http.serve ⟨Tls.reader, fun _ => .check⟩ ⟨.empty, .empty, .empty⟩
      (fun _ _ => .opened { afterwards := .silent } 250 []) ⟨8192, 60000⟩ 1000 drippingClient
    service.result = some (.error (.sniffParse (.timedOut .httpHead))) ∧
      service.finishedAt = 1000 := by
  intro service
  let env : Environment := ⟨Tls.reader, fun _ => .check⟩
  have hlate : ¬ http.SniffedBy env.acceptor drippingClient 1000 := by
    rintro ⟨value, time, rest, log, hrun, -⟩
    have hwaiting : ∃ rest log,
        (http.sniff env.acceptor).run none 0 drippingClient = .waiting rest log := ⟨_, _, rfl⟩
    obtain ⟨_, _, hwaiting⟩ := hwaiting
    rw [hwaiting] at hrun
    cases hrun
  have hdialers : ∀ (via : Via) (request : DialRequest),
      (Dialing.opened ({ afterwards := .silent } : Script) 250 []) ≠ .pending := by
    intro via request h
    cases h
  obtain ⟨-, -, htimedOut, -⟩ := @serve_finishes ⟨.empty, .empty, .empty⟩ _ hdialers http env
    ⟨8192, 60000⟩ 1000 drippingClient
  obtain ⟨hresult, hended, -⟩ := htimedOut hlate
  exact ⟨hresult, hended⟩

end Frontend

end SniffProxy
