import SniffProxy.Frontend
import SniffProxy.Proofs.Transport.Socks5Grammar
import SniffProxy.Tls.Reader

/-!
# The reply of the SOCKS5 front-end

The reply belongs to the handshake, and the handshake is over before the destination is routed. So a
client is told success once its request has been read: before it is looked up whether the destination
is blocked, and before anybody dials it.

* `Frontend.await_socks5` — what a client has sent and received when its destination is known.
* `Frontend.serve_socks5_replied` — a destination that is blocked or cannot be dialed changes nothing
  in what the client was told.
-/

namespace SniffProxy.Frontend

variable {acceptor : Tls.Acceptor} {env : Environment} {timeout : Nat} {client : Script}
  {target : HostPort}

/-- A client whose destination is known has sent a handshake for it and was told success. -/
theorem await_socks5 (h : (socks5.await acceptor timeout client).target = .ok target) :
    ∃ taken address, Socks5.IsHandshake taken address ∧ address.target = target ∧
      client.content = taken ++ (socks5.await acceptor timeout client).client.content ∧
      (socks5.await acceptor timeout client).client.received =
        client.received ++ (Socks5.selection ++ Socks5.successReply) := by
  unfold await at h ⊢
  split at h
  · rename_i value peek time rest log hrun
    cases h
    obtain ⟨found, _, _, _, _, hfirst, hsecond, _⟩ := Session.run_bind hrun
    cases found with
    | error error => cases hsecond
    | ok address =>
      cases hsecond
      obtain ⟨taken, _, hcontent, hreceived, rfl, hhandshake⟩ := Socks5.unwrap_ensures hfirst
      exact ⟨taken, address, hhandshake, rfl, hcontent, hreceived⟩
  · cases h
  · cases h

/-- What the client of a connection gets comes behind what it got in the first phase. -/
theorem serve_clientReceived (frontend : Frontend) (env : Environment) (router : Router)
    (dialers : Dialers Script) (limits : RelayLimits) (timeout : Nat) (client : Script) :
    (frontend.await env.acceptor timeout client).client.received <+:
      (frontend.serve env router dialers limits timeout client).clientReceived := by
  simp only [serve]
  split
  · exact List.prefix_refl _
  · unfold proceed
    split
    · exact List.prefix_append _ _
    · exact List.prefix_refl _
    · exact List.prefix_refl _

/-- A destination that was found and could not be dialed. -/
theorem serve_of_failed {frontend : Frontend} {router : Router} {dialers : Dialers Script}
    (limits : RelayLimits) {error : ProxyError} {closed : Option Script} {took : Nat}
    {log : List LogEvent}
    (hfound : (frontend.await env.acceptor timeout client).target = .ok target)
    (hdial : (router.dial dialers (dialRequest target)).dialing = .failed error closed took log) :
    frontend.serve env router dialers limits timeout client =
      (frontend.await env.acceptor timeout client).undialed (some (.error error))
        (router.dial dialers (dialRequest target)) := by
  simp only [serve, hfound, proceed, hdial]

/-- **Success is told before anything is dialed.** Whatever the rules say and whatever the dialers do,
the client of a known destination has sent a request for it and was told success; if dialing fails,
that is all it was told, and if the destination is blocked, no dialer is even asked. -/
theorem serve_socks5_replied (env : Environment) (router : Router) (dialers : Dialers Script)
    (limits : RelayLimits) (hfound : (socks5.await env.acceptor timeout client).target = .ok target) :
    (∃ taken address, Socks5.IsHandshake taken address ∧ address.target = target ∧
      taken <+: client.content) ∧
    client.received ++ (Socks5.selection ++ Socks5.successReply) <+:
      (socks5.serve env router dialers limits timeout client).clientReceived ∧
    (∀ error closed took log,
      (router.dial dialers (dialRequest target)).dialing = .failed error closed took log →
      (socks5.serve env router dialers limits timeout client).result = some (.error error) ∧
      (socks5.serve env router dialers limits timeout client).clientReceived =
        client.received ++ (Socks5.selection ++ Socks5.successReply)) ∧
    (router.decide target.host = .block →
      (socks5.serve env router dialers limits timeout client).result =
        some (.error (.blocked target.host)) ∧
      (socks5.serve env router dialers limits timeout client).requests = [] ∧
      (socks5.serve env router dialers limits timeout client).clientReceived =
        client.received ++ (Socks5.selection ++ Socks5.successReply)) := by
  obtain ⟨taken, address, hhandshake, htarget, hcontent, hreceived⟩ := await_socks5 hfound
  refine ⟨⟨taken, address, hhandshake, htarget, ⟨_, hcontent.symm⟩⟩, ?_, ?_, ?_⟩
  · rw [← hreceived]
    exact serve_clientReceived socks5 env router dialers limits timeout client
  · intro error closed took log hdial
    rw [serve_of_failed limits hfound hdial]
    exact ⟨rfl, hreceived⟩
  · intro hblock
    have hdial : router.dial dialers (dialRequest target) =
        ⟨.failed (.blocked target.host) none 0 [], [], [.routed Route.block.marker target]⟩ := by
      simp only [Router.dial, dialRequest, hblock, Router.viaOf]
    rw [serve_of_failed limits hfound (congrArg Router.Dialed.dialing hdial), hdial]
    exact ⟨rfl, rfl, hreceived⟩

/-- A client that asks for `ads.test`. -/
def adsClient : Script where
  events := [⟨0, .data [5, 1, 0]⟩,
    ⟨0, .data ([5, 1, 0, 3, 8] ++ utf8 "ads.test" ++ [0, 80])⟩]

/-- A router that blocks it. -/
def adsRouter : Router :=
  ⟨RuleSet.ofList ["ads.test"], .empty, .empty⟩

theorem serve_socks5_replied_ads :
    (socks5.serve ⟨Tls.reader, fun _ => .upload⟩ adsRouter (fun _ _ => .pending)
        ⟨8192, 60000⟩ 5000 adsClient).clientReceived =
      [5, 0, 5, 0, 0, 1, 0, 0, 0, 0, 0, 0] := by
  have hfound : (socks5.await Tls.reader 5000 adsClient).target = .ok ⟨"ads.test", 80⟩ := by rfl
  obtain ⟨-, -, -, hblocked⟩ := serve_socks5_replied ⟨Tls.reader, fun _ => .upload⟩ adsRouter
    (fun _ _ => .pending) ⟨8192, 60000⟩ hfound
  exact (hblocked (by decide)).2.2

/-- Success is no sign that the destination was dialed. -/
theorem success_without_dialing :
    ¬ ∀ (env : Environment) (router : Router) (dialers : Dialers Script) (limits : RelayLimits)
        (timeout : Nat) (client : Script),
      client.received ++ (Socks5.selection ++ Socks5.successReply) <+:
        (socks5.serve env router dialers limits timeout client).clientReceived →
      ∃ via target stream took log,
        (via, dialRequest target) ∈
          (socks5.serve env router dialers limits timeout client).requests ∧
        router.decide target.host ≠ .block ∧
        dialers via (dialRequest target) = .opened stream took log := by
  intro hall
  let env : Environment := ⟨Tls.reader, fun _ => .upload⟩
  obtain ⟨via, target, _, _, _, hasked, _⟩ :=
    hall env adsRouter (fun _ _ => .pending) ⟨8192, 60000⟩ 5000 adsClient ⟨[], rfl⟩
  have hnobody : (socks5.serve env adsRouter (fun _ _ => .pending) ⟨8192, 60000⟩ 5000
      adsClient).requests = [] := by rfl
  rw [hnobody] at hasked
  cases hasked

end SniffProxy.Frontend
