import SniffProxy.Frontend
import SniffProxy.Tls.Reader
import SniffProxy.Proofs.Stream.Run
import SniffProxy.Proofs.Stream.Relaying

/-!
# Transparent front-ends

A plain HTTP or TLS client does not know that its first bytes were read by someone else. Of the
client only reads are made, for who reads its hello is muted, and the peek records what is read; the
relay serves the recorded bytes before the rest of the stream.

* `Http.sniff_records`, `Tls.sniff_records` — the sniffers lose nothing.
* `Frontend.await_replays` — what is to be replayed and what is still to come are the whole stream.
* `Frontend.serve_transparent` — the outbound stream gets the client's stream from its first byte.
-/

namespace SniffProxy

/-! ## The sniffers -/

theorem Http.sniffMore_records :
    ∀ {fuel : Nat} {peek : Peek}, peek.replaying = false →
      Session.Records peek (Http.sniffMore fuel peek) := by
  intro fuel
  induction fuel with
  | zero =>
    intro peek _
    exact .done
  | succ fuel ih =>
    intro peek hreplaying
    rw [Http.sniffMore]
    refine .read_bind hreplaying fun answer => ?_
    dsimp only
    split
    · exact .done
    · exact .done
    · split
      · exact .done
      · split
        · exact .done
        · exact ih (by rw [Peek.record_replaying]; exact hreplaying)

theorem Http.sniff_records : Session.Records .start (Http.sniff .start) :=
  Http.sniffMore_records rfl

/-- Whoever reads the hello, all that was read is recorded. -/
theorem Tls.sniff_records (acceptor : Tls.Acceptor) :
    Session.Records .start (Tls.sniff acceptor .start) :=
  (Session.records_through rfl).bind_done Tls.destination

namespace Frontend

/-! ## Sniffing in time -/

/-- What a session that records leaves, once its peek is to be replayed. -/
theorem run_replays {α β : Type} (f : α → β) {session : Session (α × Peek)}
    {deadline : Option Nat} {client rest : Script} {value : β} {peek : Peek} {time : Nat}
    {log : List LogEvent} (hrecords : session.Records .start)
    (h : (session.bind fun (found, peek) => .done (f found, peek.stop.replay)).run deadline 0
      client = .finished (value, peek) time rest log) :
    Relay.upward peek rest = client.content := by
  obtain ⟨⟨found, last⟩, firstTime, firstRest, firstLog, secondLog, hfirst, hsecond, _⟩ :=
    Session.run_bind h
  cases hsecond
  have hkept := hrecords.run rfl hfirst
  exact hkept

/-- **A destination that was found costs no byte**: the peek replays what was read, and the rest of
the client's stream comes after it. -/
theorem await_replays {frontend : Frontend} (hfrontend : frontend = .http ∨ frontend = .https)
    {acceptor : Tls.Acceptor} {timeout : Nat} {client : Script} {target : HostPort}
    (h : (frontend.await acceptor timeout client).target = .ok target) :
    Relay.upward (frontend.await acceptor timeout client).peek
        (frontend.await acceptor timeout client).client =
      client.content := by
  unfold await at h ⊢
  split at h
  · rename_i value peek time rest log hrun
    rcases hfrontend with rfl | rfl
    · exact run_replays id Http.sniff_records hrun
    · exact run_replays _ (Tls.sniff_records acceptor) hrun
  · cases h
  · cases h

/-! ## Serving -/

section

variable {frontend : Frontend} {env : Environment} {router : Router} {dialers : Dialers Script}
  {limits : RelayLimits} {timeout took : Nat} {client outbound : Script} {target : HostPort}
  {log : List LogEvent}

/-- What the outbound stream of a served connection gets. -/
theorem serve_outbound (hsniff : (frontend.await env.acceptor timeout client).target = .ok target)
    (hdial : (router.dial dialers (dialRequest target)).dialing = .opened outbound took log) :
    (frontend.serve env router dialers limits timeout client).outboundReceived =
      outbound.received ++ (Relay.run env.turns limits.bufferSize limits.idleTimeout
        ((frontend.await env.acceptor timeout client).time + took)
        (frontend.await env.acceptor timeout client).peek
        (frontend.await env.acceptor timeout client).client outbound).outboundReceived.flatten := by
  simp only [serve, hsniff, proceed, relay, hdial]
  rfl

end

/-- **The front-ends that sniff are transparent.** Whatever the client sends and however it is cut,
whatever the router and the dialers do and whoever reads client hellos, once a destination was found
and dialed the outbound stream gets a first part of the client's stream, counted from its very first
byte, each byte once and in order; and the whole of it if the end of that stream ends the relay. -/
theorem serve_transparent {frontend : Frontend} (hfrontend : frontend = .http ∨ frontend = .https)
    (env : Environment) (router : Router) (dialers : Dialers Script) (limits : RelayLimits)
    (timeout : Nat) (client : Script) {target : HostPort} {outbound : Script} {took : Nat}
    {log : List LogEvent}
    (hsniff : (frontend.await env.acceptor timeout client).target = .ok target)
    (hdial : (router.dial dialers (dialRequest target)).dialing = .opened outbound took log) :
    ∃ sent, (frontend.serve env router dialers limits timeout client).outboundReceived =
        outbound.received ++ sent ∧
      sent <+: client.content ∧
      (Relay.EndsWithClient env.turns limits.bufferSize limits.idleTimeout
          ((frontend.await env.acceptor timeout client).time + took)
          (frontend.await env.acceptor timeout client).peek
          (frontend.await env.acceptor timeout client).client outbound →
        sent = client.content) := by
  refine ⟨_, serve_outbound hsniff hdial, ?_, fun hends => ?_⟩
  · rw [← await_replays hfrontend hsniff]
    exact Relay.run_outbound_isPrefix ..
  · rw [← await_replays hfrontend hsniff]
    exact Relay.run_outbound_complete hends

/-- A hello that names `a.com`. -/
def helloBytes : Bytes :=
  [0x16, 3, 1, 0, 0x49, 1, 0, 0, 0x45, 3, 3] ++ (List.range 32).map UInt8.ofNat ++
    [0, 0, 4, 0x13, 1, 0xc0, 0x2f, 1, 0, 0, 0x18] ++
    [0, 0, 0, 0xa, 0, 8, 0, 0, 5] ++ utf8 "a.com" ++ [0, 0xd, 0, 6, 0, 4, 4, 3, 8, 4]

/-- A client whose hello comes in two pieces, the second one with more behind it. -/
def splitHello : Script where
  events := [⟨0, .data (helloBytes.take 40)⟩, ⟨5, .data (helloBytes.drop 40 ++ [23, 3, 3])⟩]

/-- Relayed through a small buffer until the client ends, it arrives as a whole, though the dialer
took its time. -/
theorem serve_transparent_splitHello :
    (https.serve ⟨Tls.reader, fun _ => .upload⟩ ⟨.empty, .empty, .empty⟩
        (fun _ _ => .opened { afterwards := .silent } 20 []) ⟨8, 60000⟩ 1000
        splitHello).outboundReceived =
      helloBytes ++ [23, 3, 3] := by
  have hsniff : (https.await Tls.reader 1000 splitHello).target = .ok ⟨"a.com", 443⟩ := by rfl
  obtain ⟨sent, hreceived, _, hall⟩ := serve_transparent (.inr rfl) ⟨Tls.reader, fun _ => .upload⟩
    ⟨.empty, .empty, .empty⟩ (fun _ _ => .opened { afterwards := .silent } 20 []) ⟨8, 60000⟩ 1000
    splitHello hsniff rfl
  have hup : (Flow.ofSource 8 ((https.await Tls.reader 1000 splitHello).time + 20)
      (https.await Tls.reader 1000 splitHello).peek
      (https.await Tls.reader 1000 splitHello).client { afterwards := .silent }).ending =
        some (25, .ok ()) := by
    rfl
  have hends := Relay.endsWithClient_of_early (fun _ => .upload) 60000 (by decide) hup (by omega) rfl
  rw [hreceived, hall hends]
  rfl

end Frontend

end SniffProxy
