import SniffProxy.Error
import SniffProxy.Stream.Wire

/-!
# Networks

What the outside makes of an attempt to connect. How a name is looked up, a peer reached, a TLS or
SSH handshake carried through and a password judged is decided elsewhere; what matters here is how
long an attempt takes and how it ends, if it ends at all.

* `Attempt`, `Attempt.within` — an attempt, and what it comes to under a deadline.
* `Network` — the attempts that connections are made of.
* `Network.ofTcp` — a network on which nobody speaks TLS or SSH.
-/

namespace SniffProxy

/-! ## Attempts -/

/-- Something that ends after some milliseconds with a value or a failure, or never ends. -/
inductive Attempt (α : Type) where
  | ended (took : Nat) (result : Except IoError α)
  | pending

namespace Attempt

variable {α β : Type}

/-- The same, some time later. -/
def delayed (time : Nat) : Attempt α → Attempt α
  | ended took result => ended (time + took) result
  | pending => pending

/-- One attempt after another, which goes on with the value of the first. -/
def bind : Attempt α → (α → Attempt β) → Attempt β
  | ended took (.ok value), next => (next value).delayed took
  | ended took (.error error), _ => ended took (.error error)
  | pending, _ => pending

/-- What an attempt comes to that is given up at a deadline. One that ends just then has ended. -/
def within (deadline : Nat) (late : DialFault) (explain : IoError → DialFault) :
    Attempt α → Nat × Except ProxyError α
  | ended took result =>
    if took ≤ deadline then (took, result.mapError fun error => .dialFailed (explain error))
    else (deadline, .error (.dialFailed late))
  | pending => (deadline, .error (.dialFailed late))

end Attempt

/-! ## Connections -/

/-- The attempts that connections are made of. -/
structure Network (σ : Type) where
  /-- Connects to a host and port. -/
  tcp : HostPort → Attempt σ
  /-- Has the stream send at once what is written to it. -/
  noDelay : σ → Except IoError σ
  /-- Carries a TLS handshake through with the peer of a stream, which has to be the named one. -/
  tls : (serverName : String) → σ → Attempt σ
  /-- Connects to a host and port and carries an SSH handshake through. -/
  ssh : HostPort → Attempt Unit
  /-- Shows a user's password to the SSH server; the answer is whether it is accepted. -/
  login : (server : HostPort) → (user password : String) → Attempt Bool
  /-- Opens a channel to a target through the SSH server. -/
  channel : (server target : HostPort) → Attempt σ

/-- What a peer says that speaks another protocol, or none. -/
def notSpoken : IoError := .described "protocol not spoken"

/-- A handshake with a peer that does not know the protocol. It fails as soon as the peer says
something or ends its side, and else never ends. -/
def misunderstood {σ α : Type} [Wire σ] (stream : σ) : Attempt α :=
  if Wire.answers stream then .ended 0 (.error notSpoken) else .pending

/-- A network of peers that know neither TLS nor SSH. -/
def Network.ofTcp {σ : Type} [Wire σ] (connect : HostPort → Except IoError σ) : Network σ where
  tcp target := .ended 0 (connect target)
  noDelay := .ok
  tls _ stream := misunderstood stream
  ssh server := (Attempt.ended 0 (connect server)).bind misunderstood
  login _ _ _ := .pending
  channel _ _ := .pending

end SniffProxy
