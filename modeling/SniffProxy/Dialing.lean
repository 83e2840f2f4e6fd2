import SniffProxy.Log

/-!
# Dialing

How the attempt to open a connection ends: with a stream, with a failure, or never.
-/

namespace SniffProxy

/-- The end of an attempt to open a connection: how many milliseconds it took, and what was reported
meanwhile. -/
inductive Dialing (σ : Type) where
  | opened (stream : σ) (took : Nat) (log : List LogEvent)
  /-- A stream that was opened before the failure is closed again. -/
  | failed (error : ProxyError) (closed : Option σ) (took : Nat) (log : List LogEvent)
  /-- The attempt never ends. -/
  | pending
  deriving DecidableEq, Repr

namespace Dialing

variable {σ τ : Type}

/-- The stream or the failure, if the attempt ends. -/
def result : Dialing σ → Option (Except ProxyError σ)
  | opened stream _ _ => some (.ok stream)
  | failed error _ _ _ => some (.error error)
  | pending => none

/-- How long it took, if it ended. -/
def took : Dialing σ → Nat
  | opened _ took _ => took
  | failed _ _ took _ => took
  | pending => 0

/-- What was reported. -/
def log : Dialing σ → List LogEvent
  | opened _ _ log => log
  | failed _ _ _ log => log
  | pending => []

/-- The stream that was opened, whether it is handed out or closed again. -/
def stream? : Dialing σ → Option σ
  | opened stream _ _ => some stream
  | failed _ closed _ _ => closed
  | pending => none

/-- The attempt with other streams. -/
def map (f : σ → τ) : Dialing σ → Dialing τ
  | opened stream took log => opened (f stream) took log
  | failed error closed took log => failed error (closed.map f) took log
  | pending => pending

end Dialing

end SniffProxy
