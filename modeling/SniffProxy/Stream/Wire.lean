import SniffProxy.Stream.Partner

/-!
# Wires

What a connection has to offer for a session to be run on it. Scripted streams and partners are
wires.
-/

namespace SniffProxy

/-- Streams on which sessions can be run. -/
class Wire (σ : Type) where
  /-- Runs a session to its end: its value, how long it took, the stream after it and what it
  reported. Nothing if it waits for ever. -/
  run : {α : Type} → Session α → σ → Option (α × Nat × σ × List LogEvent)

/-- The clock of a scripted stream starts when it is opened. -/
instance : Wire Script where
  run session script :=
    match session.run none 0 script with
    | .finished value time script log => some (value, time, script, log)
    | .waiting _ _ => none

instance : Wire Partner where
  run session partner :=
    match session.converse partner with
    | (value, partner, log) => some (value, 0, partner, log)

/-- Whether the peer ever sends something or ends its side, when spoken to first. -/
def Wire.answers {σ : Type} [Wire σ] (stream : σ) : Bool :=
  (Wire.run (.read 1 .done) stream).isSome

end SniffProxy
