import SniffProxy.Proofs.Stream.Ensuring
import SniffProxy.Proofs.Transport.Agreement

/-!
# Authentication comes first

A trojan server and a compact server say nothing about a request before they have seen their secret.
On a stream without it they end in one of three ways: the stream failed, its first read was short,
or authentication failed. And nobody who presents a whole head without the secret can tell two
servers apart, or two requests: the head is taken, nothing is written and nothing else is looked at.

* `Discloses` — the results that tell something about what stands behind the secret.
* `observe` — what a run shows of a server.
* `Gated` — a server behind a secret; `gated_of_head` — every server that checks its head first is.
* `Transport.authentication_gates` — the trojan and the compact server are.
-/

namespace SniffProxy

/-- A result that tells something about what stands behind the secret: an address, or any failure
but those of the stream, of a short read and of authentication. -/
def Discloses : Except ProxyError Address → Prop
  | .ok _ => True
  | .error (.io _) => False
  | .error (.malformedHeader .shortRead) => False
  | .error .authenticationFailure => False
  | .error _ => True

/-- What a run shows of a server. -/
structure Observation where
  result : Except ProxyError Address
  /-- How many bytes were taken. -/
  taken : Nat
  written : List Bytes
  log : List LogEvent

/-- What a server shows on a stream, unless it waits for ever. -/
def observe (server : Handshake Address) (now : Nat) (script : Script) : Option Observation :=
  match server.session.run none now script with
  | .finished result _ rest log =>
    some ⟨result, script.content.length - rest.content.length,
      rest.written.drop script.written.length, log⟩
  | .waiting _ _ => none

/-- The first read of the stream delivers a whole head, and one that does not begin with the
secret. -/
def Script.Impostor (script : Script) (now size : Nat) (secret : Bytes) : Prop :=
  ∃ time head events, script.read size now = .ready time (.ok head) events ∧ head.length = size ∧
    ¬ secret <+: head

/-- A server behind a secret at the start of a head of so many bytes. -/
structure Gated (server : Handshake Address) (size : Nat) (secret : Bytes) : Prop where
  /-- Nothing is disclosed on a stream that does not begin with the secret. -/
  begins_of_discloses : ∀ ⦃deadline : Option Nat⦄ ⦃now time : Nat⦄ ⦃script rest : Script⦄
    ⦃result : Except ProxyError Address⦄ ⦃log : List LogEvent⦄,
    server.session.run deadline now script = .finished result time rest log →
    Discloses result → secret <+: script.content
  /-- Any two impostors see the same: authentication failed, the head is gone, nothing is written.
  -/
  observe_impostors : ∀ ⦃now now' : Nat⦄ ⦃script script' : Script⦄,
    script.Impostor now size secret → script'.Impostor now' size secret →
    observe server now script = observe server now' script' ∧
      ∃ log, observe server now script = some ⟨.error .authenticationFailure, size, [], log⟩

section

variable {size : Nat} {secret : Bytes} {accept : Bytes → Handshake Address}
  {refuse : Handshake Address} {log : List LogEvent}

/-- One read that delivers just what was asked for. -/
theorem Handshake.run_readOnce {script : Script} {now time : Nat} {head : Bytes}
    {events : List ReadEvent} (hread : script.read size now = .ready time (.ok head) events)
    (hlength : head.length = size) :
    (Handshake.readOnce size).session.run none now script =
      .finished (.ok head) time { script with events } [] := by
  rw [Handshake.run_readOnce_of_read hread, if_pos hlength]

/-- **A server that looks at its head first is gated**: it reads the head at once and refuses every
head without the secret in the same way, whatever it does with the others. -/
theorem gated_of_head (width : Nat)
    (hrefuse : ∀ deadline now script, refuse.session.run deadline now script =
      .finished (.error .authenticationFailure) now script log) :
    Gated (do
      let head ← Handshake.readOnce size
      if head.take width = secret then accept head else refuse) size secret where
  begins_of_discloses := by
    intro deadline now time script rest result log' hrun hdiscloses
    obtain ⟨error, rfl, hfirst⟩ | ⟨head, _, between, _, _, hfirst, hsecond, _⟩ :=
      Handshake.run_bind hrun
    · have hquiet : (Handshake.readOnce size).FailsOnly fun error => ¬ Discloses (.error error) :=
        Handshake.failsOnly_readOnce size (fun _ => id) id
      exact absurd hdiscloses (hquiet hfirst)
    · obtain ⟨_, _, hcontent, _, _, rfl, _⟩ := Handshake.ensures_readOnce size hfirst
      split at hsecond
      · rename_i hsecret
        rw [hcontent, ← hsecret]
        exact (List.take_prefix width _).trans (List.prefix_append _ _)
      · rw [hrefuse] at hsecond
        cases hsecond
        exact hdiscloses.elim
  observe_impostors := by
    have hobserve : ∀ {now : Nat} {script : Script}, script.Impostor now size secret →
        observe (do
          let head ← Handshake.readOnce size
          if head.take width = secret then accept head else refuse) now script =
          some ⟨.error .authenticationFailure, size, [], log⟩ := by
      rintro now script ⟨time, head, events, hread, hlength, himpostor⟩
      have hother : ¬ head.take width = secret :=
        fun h => himpostor (h ▸ List.take_prefix width head)
      have hcontent : script.content = head ++ Script.contentOf events :=
        (Script.read_delivers hread).content_eq
      have htaken : script.content.length - (Script.contentOf events).length = size := by
        rw [hcontent, List.length_append, hlength]
        omega
      rw [observe, Handshake.session_bind,
        Session.run_bind_of_quiet (Handshake.run_readOnce hread hlength)]
      dsimp only
      rw [if_neg hother, hrefuse]
      dsimp only [Script.content, Script.written] at htaken ⊢
      rw [htaken, List.drop_length]
    intro now now' script script' himpostor himpostor'
    exact ⟨(hobserve himpostor).trans (hobserve himpostor').symm, log, hobserve himpostor⟩

end

namespace Transport

/-- **Authentication gates everything.** A trojan server discloses nothing unless the stream begins
with the 56 bytes of the secret, a compact server nothing unless it begins with the 16 bytes of the
key; and all streams whose first read delivers a whole head of 60 or 20 bytes without them are
answered alike, whatever else they hold. -/
theorem authentication_gates (password : String) :
    (Trojan.secret password).length = 56 ∧
    Gated (Trojan.unwrap password) 60 (Trojan.secret password) ∧
    (Compact.key password).length = 16 ∧
    Gated (Compact.unwrap password) 20 (Compact.key password) :=
  ⟨Trojan.length_secret password,
    gated_of_head 56 fun _ _ _ => rfl,
    Compact.length_key password,
    gated_of_head 16 fun _ _ _ => rfl⟩

end Transport

end SniffProxy
