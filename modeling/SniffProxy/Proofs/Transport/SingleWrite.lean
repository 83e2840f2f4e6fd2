import SniffProxy.Proofs.Stream.Deadline
import SniffProxy.Proofs.Stream.Exchange
import SniffProxy.Proofs.Transport.Agreement
import SniffProxy.Transport.Framing

/-!
# Framed requests are written once or not at all

A client that announces a destination by a frame writes the frame in one write and never repeats it.
A peer sees a first part of one frame, and all of it if the client succeeds, whatever the stream
accepts and however it fails.

* `SentOnce` — what is exchanged when there is a frame; `Handshake.writeFrame_sentOnce`.
* `Sends` — the same, with a request that may be refused before anything is written.
* `Transport.frames_sent_once` — the trojan and the compact client, on every stream.
-/

namespace SniffProxy

/-- What someone exchanges who sends a frame in a single write. -/
structure SentOnce (frame : Bytes) (e : Exchange (Except ProxyError Unit)) : Prop where
  /-- The whole frame is offered first, and nothing but a flush may follow: there is no second write
  and no read. -/
  calls : ∃ answer rest, e.calls = .write frame answer :: rest ∧
    (rest = [] ∨ ∃ flushed, rest = [.flush flushed])
  ok_iff : e.value = .ok () ↔ e.calls = [.write frame (.ok frame.length), .flush (.ok ())]
  short : ∀ written ≠ frame.length, .write frame (.ok written) ∈ e.calls →
    e.calls = [.write frame (.ok written)] ∧ e.value = .error (.shortWrite written frame.length)
  failed : ∀ error, .write frame (.error error) ∈ e.calls ∨ .flush (.error error) ∈ e.calls →
    e.value = .error (.io error)
  /-- The peer sees a first part of the frame. -/
  given_isPrefix : e.calls.flatMap Call.given <+: frame
  given_eq : e.value = .ok () → e.calls.flatMap Call.given = frame

/-- What someone exchanges who sends the frame of a request, unless the request is refused. -/
def Sends (request : Except ProxyError Bytes) (e : Exchange (Except ProxyError Unit)) : Prop :=
  match request with
  | .error error => e.calls = [] ∧ e.value = .error error
  | .ok frame => SentOnce frame e

/-! ## Single writes -/

theorem Script.write_of_unstalled {script : Script} (h : script.limits.stallAt = none)
    (data : Bytes) : ∃ answer after, script.write data = .ready answer after := by
  unfold Script.write
  split
  · exact ⟨_, _, rfl⟩
  · rw [h]
    exact ⟨_, _, rfl⟩

namespace Handshake

variable {frame : Bytes} {calls : List Call} {value : Except ProxyError Unit}

/-- The calls of a single write: the write, and a flush if everything was accepted. -/
theorem writeFrame_session (frame : Bytes) :
    (writeFrame frame).session = .write frame fun answer =>
      match answer with
      | .error error => .done (.error (.io error))
      | .ok written =>
        if written = frame.length then
          .flush fun flushed => .done (flushed.mapError ProxyError.io)
        else .done (.error (.shortWrite written frame.length)) := by
  rw [writeFrame, session_bind]
  refine congrArg (Session.write frame) (funext fun answer => ?_)
  cases answer with
  | error error => rfl
  | ok written =>
    show (if written = frame.length then flush else _ : Handshake Unit).session = _
    by_cases hall : written = frame.length
    · simp only [if_pos hall]
      refine congrArg Session.flush (funext fun flushed => ?_)
      cases flushed <;> rfl
    · simp only [if_neg hall]
      rfl

/-- A frame is written and flushed, or written in part, or not written. -/
theorem writeFrame_cases (h : (writeFrame frame).session.Makes calls value) :
    (calls = [.write frame (.ok frame.length), .flush (.ok ())] ∧ value = .ok ()) ∨
    (∃ error, calls = [.write frame (.ok frame.length), .flush (.error error)] ∧
      value = .error (.io error)) ∨
    (∃ written, written ≠ frame.length ∧ calls = [.write frame (.ok written)] ∧
      value = .error (.shortWrite written frame.length)) ∨
    (∃ error, calls = [.write frame (.error error)] ∧ value = .error (.io error)) := by
  rw [writeFrame_session] at h
  cases h with
  | @write _ _ answer calls _ h =>
    cases answer with
    | error error =>
      cases h
      exact .inr (.inr (.inr ⟨error, rfl, rfl⟩))
    | ok written =>
      dsimp only at h
      split at h
      · rename_i hall
        cases h with
        | @flush _ flushed _ _ h =>
          rw [hall]
          cases flushed with
          | error error =>
            cases h
            exact .inr (.inl ⟨error, rfl, rfl⟩)
          | ok _ =>
            cases h
            exact .inl ⟨rfl, rfl⟩
      · rename_i hshort
        cases h
        exact .inr (.inr (.inl ⟨written, hshort, rfl, rfl⟩))

/-- **A frame is sent once**, however its write and its flush are answered. -/
theorem writeFrame_sentOnce (h : (writeFrame frame).session.Makes calls value) :
    SentOnce frame ⟨calls, value⟩ := by
  obtain ⟨rfl, rfl⟩ | ⟨error, rfl, rfl⟩ | ⟨written, hshort, rfl, rfl⟩ | ⟨error, rfl, rfl⟩ :=
    writeFrame_cases h
  case inl =>
    refine ⟨⟨_, _, rfl, .inr ⟨_, rfl⟩⟩, ⟨fun _ => rfl, fun _ => rfl⟩, ?_, ?_, ?_, fun _ => ?_⟩
    all_goals simp [Call.given]
  case inr.inl =>
    refine ⟨⟨_, _, rfl, .inr ⟨_, rfl⟩⟩, ?_, ?_, ?_, ?_, nofun⟩
    all_goals simp [Call.given]
  case inr.inr.inl =>
    refine ⟨⟨_, _, rfl, .inl rfl⟩, ?_, ?_, ?_, ?_, nofun⟩
    case refine_2 =>
      intro other _ hmem
      cases List.mem_singleton.mp hmem
      exact ⟨rfl, rfl⟩
    all_goals simp [Call.given, List.take_prefix]
  case inr.inr.inr =>
    refine ⟨⟨_, _, rfl, .inl rfl⟩, ?_, ?_, ?_, ?_, nofun⟩
    all_goals simp [Call.given]

/-- On a stream that never stalls a single write comes to its end at once, and reads nothing. -/
theorem writeFrame_run {script : Script} (h : script.limits.stallAt = none) (frame : Bytes)
    (deadline : Option Nat) (now : Nat) :
    ∃ value after,
      (writeFrame frame).session.run deadline now script = .finished value now after [] ∧
        after.events = script.events := by
  obtain ⟨answer, after, hwrite⟩ := Script.write_of_unstalled h frame
  have hevents := Script.write_events hwrite
  rw [writeFrame_session, Session.run, hwrite]
  cases answer with
  | error error => exact ⟨_, after, rfl, hevents⟩
  | ok written =>
    dsimp only
    split
    · exact ⟨_, after, rfl, hevents⟩
    · exact ⟨_, after, rfl, hevents⟩

end Handshake

/-! ## Clients -/

/-- A client that sends the frame of a request once or not at all, on every stream that answers its
calls, and on every scripted stream that never stalls. -/
structure SendsOnce (request : Except ProxyError Bytes) (client : Handshake Unit) : Prop where
  exchange : ∀ (answerer : Answerer) (past : List Call),
    Sends request (client.session.exchange answerer past)
  run : ∀ (script : Script) (deadline : Option Nat) (now : Nat), script.limits.stallAt = none →
    ∃ e after, client.session.run deadline now script = .finished e.value now after [] ∧
      client.session.Makes e.calls e.value ∧ Sends request e ∧ after.events = script.events ∧
      after.received = script.received ++ e.calls.flatMap Call.given

/-- A client that asks for a frame and writes it. -/
theorem Handshake.framed_sendsOnce (request : Except ProxyError Bytes) :
    SendsOnce request (do
      let frame ← ofExcept request
      writeFrame frame) := by
  cases request with
  | error error =>
    refine ⟨fun _ _ => ⟨rfl, rfl⟩, fun script deadline now _ => ?_⟩
    exact ⟨⟨[], .error error⟩, script, rfl, .done, ⟨rfl, rfl⟩, rfl, (List.append_nil _).symm⟩
  | ok frame =>
    refine ⟨fun answerer past => ?_, fun script deadline now hstall => ?_⟩
    · exact writeFrame_sentOnce (Session.exchange_makes answerer _ past)
    · obtain ⟨value, after, hrun, hevents⟩ := writeFrame_run hstall frame deadline now
      obtain ⟨calls, hmakes, -, -, hreceived⟩ := Session.run_makes hrun
      exact ⟨⟨calls, value⟩, after, hrun, hmakes, writeFrame_sentOnce hmakes, hevents, hreceived⟩

namespace Transport

/-- **Framed requests are written once or not at all.** A trojan and a compact client whose request
is refused make no call and answer the refusal. Otherwise they offer the whole frame in one write,
read nothing, and succeed just when all of it was accepted and flushed; a short write is reported
and never repeated. So a peer sees a first part of one frame, and all of it after a success. -/
theorem frames_sent_once (password host : String) (port : Port) :
    SendsOnce (Trojan.request password host port) (Trojan.wrap password host port) ∧
    SendsOnce (Compact.request password host port) (Compact.wrap password host port) :=
  ⟨Handshake.framed_sendsOnce _, Handshake.framed_sendsOnce _⟩

/-- A stream that accepts some bytes of every write and delivers none. -/
def thrifty (limit : Nat) : Answerer where
  read _ _ := .ok []
  write _ data := .ok (min limit data.length)
  flush _ := .ok ()
  read_fits _ size := Nat.zero_le size
  write_fits _ data := Nat.min_le_right limit data.length

/-- A request of 76 bytes meets a stream that takes ten. -/
theorem frames_sent_once_thrifty :
    ((Trojan.wrap "secret" "example.com" 443).session.exchange (thrifty 10) []).value =
      .error (.shortWrite 10 76) := by
  have hsends := (frames_sent_once "secret" "example.com" 443).1.exchange (thrifty 10) []
  have hwrite : ∀ call ∈
      ((Trojan.wrap "secret" "example.com" 443).session.exchange (thrifty 10) []).calls,
      ∀ data answer, call = .write data answer → answer = .ok (min 10 data.length) := by
    refine Session.exchange_forall (fun _ _ => nofun) (fun past data data' answer h => ?_)
      (fun _ => nofun) _ []
    cases h
    rfl
  generalize (Trojan.wrap "secret" "example.com" 443).session.exchange (thrifty 10) [] = e
    at hsends hwrite ⊢
  obtain ⟨frame, hlength, hrequest⟩ : ∃ frame : Bytes, frame.length = 76 ∧
      Trojan.request "secret" "example.com" 443 = .ok frame := by
    have haddress : Address.ofHostPort "example.com" 443 = .ok ⟨.domain "example.com", 443⟩ := rfl
    refine ⟨_, ?_, Trojan.request_eq_ok "secret" haddress⟩
    rw [List.length_append, Trojan.head, List.length_append, List.length_append,
      Trojan.length_secret]
    rfl
  rw [hrequest] at hsends
  obtain ⟨answer, rest, hcalls, -⟩ := hsends.calls
  have hmem : .write frame answer ∈ e.calls := hcalls ▸ List.mem_cons_self
  obtain rfl := hwrite _ hmem frame answer rfl
  rw [hlength] at hmem
  have hvalue := (hsends.short 10 (by rw [hlength]; decide) hmem).2
  rw [hvalue, hlength]

end Transport

end SniffProxy
