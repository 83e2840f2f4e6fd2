import SniffProxy.Frontend
import SniffProxy.Proofs.Stream.Run

/-!
# How a connection is served

A connection comes to one of four ends: its destination is not found, it is relayed, its destination
cannot be dialed, or the dialer never answers.

* `Router.dial_cases` — who was asked to dial, and what the answer is.
* `Frontend.serve_cases` — the four ends.
-/

namespace SniffProxy

/-- A router answers a request with its own refusal or with what the dialer it asked answered. -/
theorem Router.dial_cases {σ : Type} (router : Router) (dialers : Dialers σ)
    (request : DialRequest) :
    ((router.dial dialers request).dialing = .failed (.blocked request.target.host) none 0 [] ∧
        (router.dial dialers request).requests = []) ∨
      ∃ via, (router.dial dialers request).dialing = dialers via request ∧
        (router.dial dialers request).requests = [(via, request)] := by
  unfold Router.dial
  dsimp only
  split
  · exact .inl ⟨rfl, rfl⟩
  · rename_i via _
    exact .inr ⟨via, rfl, rfl⟩

namespace Frontend

/-- The client is left as its first phase left it. -/
theorem await_client (frontend : Frontend) (acceptor : Tls.Acceptor) (timeout : Nat)
    (client : Script) :
    (frontend.await acceptor timeout client).client =
      ((frontend.sniff acceptor).run (some timeout) 0 client).script := by
  unfold await
  split <;> rename_i heq <;> rw [heq] <;> rfl

/-- **The four ends of a connection.** -/
theorem serve_cases (frontend : Frontend) (env : Environment) (router : Router)
    (dialers : Dialers Script) (limits : RelayLimits) (timeout : Nat) (client : Script) :
    (∃ error, (frontend.await env.acceptor timeout client).target = .error error ∧
      frontend.serve env router dialers limits timeout client =
        (frontend.await env.acceptor timeout client).refused error) ∨
    ∃ target, (frontend.await env.acceptor timeout client).target = .ok target ∧
      ((∃ outbound took log,
          (router.dial dialers (dialRequest target)).dialing = .opened outbound took log ∧
          frontend.serve env router dialers limits timeout client =
            frontend.relay env.turns limits (frontend.await env.acceptor timeout client) target
              outbound (router.dial dialers (dialRequest target))) ∨
        (∃ error closed took log,
          (router.dial dialers (dialRequest target)).dialing = .failed error closed took log ∧
          frontend.serve env router dialers limits timeout client =
            (frontend.await env.acceptor timeout client).undialed (some (.error error))
              (router.dial dialers (dialRequest target))) ∨
        ((router.dial dialers (dialRequest target)).dialing = .pending ∧
          frontend.serve env router dialers limits timeout client =
            (frontend.await env.acceptor timeout client).undialed none
              (router.dial dialers (dialRequest target)))) := by
  cases htarget : (frontend.await env.acceptor timeout client).target with
  | error error => exact .inl ⟨error, rfl, by simp only [serve, htarget]⟩
  | ok target =>
    refine .inr ⟨target, rfl, ?_⟩
    simp only [serve, htarget]
    cases hdialing : (router.dial dialers (dialRequest target)).dialing with
    | opened outbound took log =>
      exact .inl ⟨outbound, took, log, rfl, by simp only [proceed, hdialing]⟩
    | failed error closed took log =>
      exact .inr (.inl ⟨error, closed, took, log, rfl, by simp only [proceed, hdialing]⟩)
    | pending => exact .inr (.inr ⟨rfl, by simp only [proceed, hdialing]⟩)

end Frontend

end SniffProxy
