import SniffProxy.Proofs.Frontend.Serving
import SniffProxy.Proofs.Frontend.SocksReply
import SniffProxy.Proofs.Frontend.Transparency
import SniffProxy.Proofs.Stream.Silence

/-!
# What a client is told before the relay

A client learns nothing from a failure. A front-end that sniffs makes no write at all before the
relay; the SOCKS5 front-end writes its selection once it has read a greeting, and its reply once it
has read the request, so that it never says more than these twelve bytes, wherever it stops.

* `Socks5.unwrap_leaves` — what the server has taken and told wherever it stops.
* `Frontend.reply` — the most that a client can be told.
* `Frontend.serve_tells` — what it was told, and who was asked to dial.
-/

namespace SniffProxy

/-! ## The server of the handshake -/

theorem Address.decode_silent (decode : Bytes → Option Address) (error : ProxyError)
    (count : Nat) :
    Session.Silent (Handshake.session do
      let bytes ← Handshake.readExact count
      match decode bytes with
      | some address => return address
      | none => throw error) := by
  refine Handshake.silent_bind (Handshake.silent_readExact count) fun bytes => ?_
  split <;> exact trivial

theorem Address.readBody_silent (typeByte : UInt8) : (readBody typeByte).session.Silent := by
  unfold readBody
  split
  · exact decode_silent ofIpv4Body _ 6
  · split
    · exact decode_silent ofIpv6Body _ 18
    · split
      · refine Handshake.silent_bind Handshake.silent_readByte fun length => ?_
        exact decode_silent (ofDomainBody length.toNat) _ (length.toNat + 2)
      · exact trivial

namespace Socks5

theorem readRequest_silent : readRequest.session.Silent := by
  refine Handshake.silent_bind (Handshake.silent_readExact 4) fun header => ?_
  split
  · split
    · dsimp only
      split
      · exact Address.readBody_silent _
      · exact trivial
    · exact trivial
  · exact trivial

/-- The server says nothing before it has found its method in the greeting. -/
theorem negotiate_leaves : negotiate.session.Leaves fun _ given => given <+: selection := by
  refine Handshake.leaves_bind (Handshake.silent_readExact 2).leaves
    (Handshake.ensures_readExact 2) ?_ ?_
  · rintro _ _ rfl
    exact List.nil_prefix
  · rintro _ _ greeting ⟨rfl, -, -⟩
    split
    · refine Handshake.leaves_bind (Handshake.silent_readExact _).leaves
        (Handshake.ensures_readExact _) ?_ ?_
      · rintro _ _ rfl
        exact List.nil_prefix
      · rintro _ _ methods ⟨rfl, -, -⟩
        split
        · exact (Handshake.leaves_writeAll selection).mono fun _ _ h => h.2
        · refine Session.Leaves.mono (Session.Silent.leaves trivial) ?_
          rintro _ _ rfl
          exact List.nil_prefix
    · refine Session.Leaves.mono (Session.Silent.leaves trivial) ?_
      rintro _ _ rfl
      exact List.nil_prefix

/-- Whatever was told is a first part of the selection and the reply; and more than the selection is
told only behind a handshake. -/
def Told (taken given : Bytes) : Prop :=
  given <+: selection ++ successReply ∧
    (given <+: selection ∨ ∃ front address, front <+: taken ∧ IsHandshake front address)

theorem told_of_isPrefix {taken given : Bytes} (h : given <+: selection) : Told taken given :=
  ⟨h.trans (List.prefix_append _ _), .inl h⟩

theorem told_behind {front : Bytes} {address : Address} (hhandshake : IsHandshake front address)
    {more : Bytes} (hmore : more <+: successReply) (taken : Bytes) :
    Told (front ++ taken) (selection ++ more) :=
  ⟨(List.prefix_append_right_inj selection).mpr hmore,
    .inr ⟨front, address, List.prefix_append _ _, hhandshake⟩⟩

/-- **Wherever the server stops** — at a refusal, at a failing stream or at its deadline — it has
told a first part of its two messages, and of the second one only to a client that sent all of a
handshake. -/
theorem unwrap_leaves : unwrap.session.Leaves Told := by
  refine Handshake.leaves_adapt ?_ explain
  refine Handshake.leaves_bind negotiate_leaves negotiate_ensures (fun _ _ => told_of_isPrefix) ?_
  rintro _ _ _ ⟨rfl, methods, count, hcount, hmethod, rfl⟩
  refine Handshake.leaves_bind readRequest_silent.leaves readRequest_ensures ?_ ?_
  · rintro _ _ rfl
    exact told_of_isPrefix (List.prefix_refl _)
  · rintro _ _ address ⟨rfl, hencodable, reserved, rfl⟩
    have hhandshake : IsHandshake (version :: count :: methods ++
        version :: connectCommand :: reserved :: address.encode) address :=
      ⟨hencodable, methods, count, reserved, hcount, hmethod, rfl⟩
    refine Handshake.leaves_bind (Handshake.leaves_writeAll successReply)
      (Handshake.ensures_writeAll successReply) ?_ ?_
    · rintro taken more ⟨-, hmore⟩
      rw [← List.append_assoc]
      exact told_behind hhandshake hmore taken
    · rintro _ _ _ ⟨rfl, rfl⟩
      have hrest : (Handshake.flush >>= fun _ => pure address : Handshake Address).session.Silent :=
        Handshake.silent_bind Handshake.silent_flush fun _ => trivial
      refine hrest.leaves.mono ?_
      rintro taken _ rfl
      rw [List.nil_append, List.append_nil, List.nil_append, ← List.append_assoc]
      exact told_behind hhandshake (List.prefix_refl _) taken

end Socks5

namespace Frontend

/-! ## The first phase -/

/-- The most that a client is told before the relay. -/
def reply : Frontend → Bytes
  | http => []
  | https => []
  | socks5 => Socks5.selection ++ Socks5.successReply

/-- A front-end that sniffs makes no write, whoever reads client hellos: of what an acceptor writes,
nothing reaches the client. -/
theorem sniff_silent (acceptor : Tls.Acceptor) :
    ∀ frontend : Frontend, frontend ≠ .socks5 → (frontend.sniff acceptor).Silent
  | http, _ => Session.silent_bind Http.sniff_records.silent fun _ => trivial
  | https, _ => Session.silent_bind (Tls.sniff_records acceptor).silent fun _ => trivial
  | socks5, h => absurd rfl h

/-- Wherever the first phase stops, it has told the client a first part of the reply. -/
theorem sniff_leaves (acceptor : Tls.Acceptor) :
    ∀ frontend : Frontend, (frontend.sniff acceptor).Leaves fun taken given =>
      given <+: frontend.reply ∧ Socks5.Told taken given
  | http => by
    refine (sniff_silent acceptor http nofun).leaves.mono ?_
    rintro _ _ rfl
    exact ⟨List.nil_prefix, Socks5.told_of_isPrefix List.nil_prefix⟩
  | https => by
    refine (sniff_silent acceptor https nofun).leaves.mono ?_
    rintro _ _ rfl
    exact ⟨List.nil_prefix, Socks5.told_of_isPrefix List.nil_prefix⟩
  | socks5 => (Socks5.unwrap_leaves.bind_done fun _ => ⟨_, rfl⟩).mono fun _ _ h => ⟨h.1, h⟩

/-! ## The whole connection -/

/-- The destination was found and dialed, which took some time, and the connection is relayed to this
stream. -/
def Relays (frontend : Frontend) (env : Environment) (router : Router) (dialers : Dialers Script)
    (timeout : Nat) (client outbound : Script) (took : Nat) : Prop :=
  ∃ target log, (frontend.await env.acceptor timeout client).target = .ok target ∧
    (router.dial dialers (dialRequest target)).dialing = .opened outbound took log

theorem relays_iff {frontend : Frontend} {env : Environment} {timeout : Nat} {client : Script}
    {target : HostPort} (h : (frontend.await env.acceptor timeout client).target = .ok target)
    (router : Router) (dialers : Dialers Script) (outbound : Script) (took : Nat) :
    frontend.Relays env router dialers timeout client outbound took ↔
      ∃ log, (router.dial dialers (dialRequest target)).dialing = .opened outbound took log := by
  constructor
  · rintro ⟨_, log, hfound, hopened⟩
    rw [h] at hfound
    cases hfound
    exact ⟨log, hopened⟩
  · rintro ⟨log, hopened⟩
    exact ⟨target, log, h, hopened⟩

variable (frontend : Frontend) (env : Environment) (router : Router) (dialers : Dialers Script)
  (limits : RelayLimits) (timeout : Nat) (client : Script)

/-- After the first phase a client is told what a relay tells it, and nothing without one. -/
theorem serve_clientReceived_eq :
    ∃ relayed,
      (frontend.serve env router dialers limits timeout client).clientReceived =
        (frontend.await env.acceptor timeout client).client.received ++ relayed ∧
      ((∀ outbound took, ¬ frontend.Relays env router dialers timeout client outbound took) →
        relayed = []) ∧
      (∀ outbound took, frontend.Relays env router dialers timeout client outbound took →
        relayed = (Relay.run env.turns limits.bufferSize limits.idleTimeout
          ((frontend.await env.acceptor timeout client).time + took)
          (frontend.await env.acceptor timeout client).peek
          (frontend.await env.acceptor timeout client).client outbound).clientReceived.flatten) := by
  obtain ⟨error, htarget, hserve⟩ | ⟨target, htarget, ⟨outbound, took, log, hopened, hserve⟩ |
      ⟨error, closed, took, log, hfailed, hserve⟩ | ⟨hpending, hserve⟩⟩ :=
    serve_cases frontend env router dialers limits timeout client
  · refine ⟨[], by rw [hserve, List.append_nil]; rfl, fun _ => rfl, ?_⟩
    rintro outbound took ⟨target, log, hfound, -⟩
    rw [htarget] at hfound
    cases hfound
  · refine ⟨_, by rw [hserve]; rfl, fun hnone => ?_, fun other later hrelays => ?_⟩
    · exact absurd ((relays_iff htarget router dialers _ _).mpr ⟨log, hopened⟩)
        (hnone outbound took)
    · obtain ⟨_, hother⟩ := (relays_iff htarget router dialers _ _).mp hrelays
      rw [hopened] at hother ⊢
      cases hother
      rfl
  · refine ⟨[], by rw [hserve, List.append_nil]; rfl, fun _ => rfl, fun outbound took hrelays => ?_⟩
    obtain ⟨_, hopened⟩ := (relays_iff htarget router dialers _ _).mp hrelays
    rw [hfailed] at hopened
    cases hopened
  · refine ⟨[], by rw [hserve, List.append_nil]; rfl, fun _ => rfl, fun outbound took hrelays => ?_⟩
    obtain ⟨_, hopened⟩ := (relays_iff htarget router dialers _ _).mp hrelays
    rw [hpending] at hopened
    cases hopened

/-- A connection without a destination asks nobody to dial. -/
theorem serve_requests_of_error {error : ProxyError}
    (h : (frontend.await env.acceptor timeout client).target = .error error) :
    (frontend.serve env router dialers limits timeout client).requests = [] := by
  simp only [serve, h]
  rfl

/-- **Failures are silent.** Whatever the client sends and accepts, whatever the rules say and the
dialers do, and whatever the reader of client hellos would say, all that the client is told before the
relay is a first part of its front-end's reply, which is empty if the front-end sniffs: that one makes
no write at all. A connection that is not relayed tells nothing more. A connection without a
destination asks nobody to dial, and a SOCKS5 client that has not sent a handshake is told at most the
selection, and nobody is asked for it. -/
theorem serve_tells :
    ∃ told relayed,
      (frontend.serve env router dialers limits timeout client).clientReceived =
        client.received ++ told ++ relayed ∧
      told <+: frontend.reply ∧
      ((∀ outbound took, ¬ frontend.Relays env router dialers timeout client outbound took) →
        relayed = []) ∧
      (∀ outbound took, frontend.Relays env router dialers timeout client outbound took →
        relayed = (Relay.run env.turns limits.bufferSize limits.idleTimeout
          ((frontend.await env.acceptor timeout client).time + took)
          (frontend.await env.acceptor timeout client).peek
          (frontend.await env.acceptor timeout client).client outbound).clientReceived.flatten) ∧
      (∀ error, (frontend.await env.acceptor timeout client).target = .error error →
        (frontend.serve env router dialers limits timeout client).requests = []) ∧
      (frontend ≠ .socks5 → (frontend.sniff env.acceptor).Silent ∧
        (frontend.await env.acceptor timeout client).client.written = client.written) ∧
      (frontend = .socks5 →
        (∀ front address, front <+: client.content → ¬ Socks5.IsHandshake front address) →
        told <+: Socks5.selection ∧
        (frontend.serve env router dialers limits timeout client).requests = []) := by
  obtain ⟨taken, told, hcontent, hreceived, hreply, -, htold⟩ :=
    frontend.sniff_leaves env.acceptor (some timeout) 0 client
  rw [← await_client] at hcontent hreceived
  have hsilent : frontend ≠ .socks5 → (frontend.sniff env.acceptor).Silent ∧
      (frontend.await env.acceptor timeout client).client.written = client.written := by
    intro hfrontend
    have hsniff := sniff_silent env.acceptor frontend hfrontend
    obtain ⟨_, events, hscript, _⟩ := hsniff.run_frame (some timeout) 0 client
    rw [await_client, hscript]
    exact ⟨hsniff, rfl⟩
  have hnobody : frontend = .socks5 →
      (∀ front address, front <+: client.content → ¬ Socks5.IsHandshake front address) →
      told <+: Socks5.selection ∧
      (frontend.serve env router dialers limits timeout client).requests = [] := by
    rintro rfl hnone
    refine ⟨?_, ?_⟩
    · obtain htold | ⟨front, address, hfront, hhandshake⟩ := htold
      · exact htold
      · exact absurd hhandshake
          (hnone front address (hfront.trans ⟨_, hcontent.symm⟩))
    · cases htarget : (socks5.await env.acceptor timeout client).target with
      | error error => exact serve_requests_of_error _ _ _ _ _ _ _ htarget
      | ok target =>
        obtain ⟨front, address, hhandshake, -, hfront, -⟩ := await_socks5 htarget
        exact absurd hhandshake (hnone front address ⟨_, hfront.symm⟩)
  have hrequests : ∀ error, (frontend.await env.acceptor timeout client).target = .error error →
      (frontend.serve env router dialers limits timeout client).requests = [] :=
    fun error => serve_requests_of_error _ _ _ _ _ _ _
  obtain ⟨relayed, hclient, hunrelayed, hrelayed⟩ :=
    serve_clientReceived_eq frontend env router dialers limits timeout client
  rw [hreceived] at hclient
  exact ⟨told, relayed, hclient, hreply, hunrelayed, hrelayed, hrequests, hsilent, hnobody⟩

end Frontend

end SniffProxy
