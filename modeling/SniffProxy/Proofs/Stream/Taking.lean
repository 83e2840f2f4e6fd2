import SniffProxy.Proofs.Stream.Run

/-!
# Handshakes that take bytes off the front

A handshake that only reads takes the bytes of its fields off the front of a stream. If they arrive
as one event with others behind them, it leaves exactly the others.

* `Script.holding` — a stream on which some bytes arrive as one event.
* `Handshake.Takes` — a handshake answers a value for some bytes and leaves what follows.
-/

namespace SniffProxy

/-! ## Bytes that arrive as one event -/

namespace Script

/-- The stream with some bytes in front that arrive as one event. No bytes are no event. -/
def holding (script : Script) (due : Nat) (bytes : Bytes) : Script :=
  if bytes = [] then script
  else { script with events := ⟨due, .data bytes⟩ :: script.events }

theorem holding_of_ne {bytes : Bytes} (h : bytes ≠ []) (script : Script) (due : Nat) :
    script.holding due bytes = { script with events := ⟨due, .data bytes⟩ :: script.events } :=
  if_neg h

/-- Exactly these bytes are still to come before those of the stream. -/
theorem holding_content (script : Script) (due : Nat) (bytes : Bytes) :
    (script.holding due bytes).content = bytes ++ script.content := by
  by_cases h : bytes = []
  · rw [h]
    rfl
  · rw [holding_of_ne h]
    rfl

end Script

/-! ## Taking -/

namespace Handshake

variable {α β : Type}

/-- From every stream on which these bytes arrive as one event, with whatever payload behind them in
the same event, the handshake answers the value and leaves exactly the payload. -/
def Takes (handshake : Handshake α) (bytes : Bytes) (value : α) : Prop :=
  ∀ (payload : Bytes) (script : Script) (due now : Nat), ∃ time,
    handshake.session.run none now (script.holding due (bytes ++ payload)) =
      .finished (.ok value) time (script.holding due payload) []

theorem session_bind (x : Handshake α) (f : α → Handshake β) :
    (x >>= f).session = x.session.bind fun result =>
      match result with
      | .ok value => (f value).session
      | .error error => .done (.error error) := by
  show x.session.bind (ExceptT.bindCont f) = _
  congr 1
  funext result
  cases result <;> rfl

end Handshake

end SniffProxy
