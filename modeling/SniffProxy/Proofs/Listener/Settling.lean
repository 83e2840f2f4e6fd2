import SniffProxy.Proofs.Listener.Steps
import SniffProxy.Tls.Reader

/-!
# No slot is left unused

A listener settles after whatever is done to it, and then nobody can be accepted and nobody can enter
service: whoever still waits finds all slots taken. With this, what is promised of slots is promised of
every listener.

* `Listener.Settled` — nobody can move on; `Listener.Reachable.settled` — so it is in every listener.
* `Listener.admission` — the promise for slots and for the listeners that have them.
-/

namespace SniffProxy

open Relation (ReflTransGen)

/-! ## Moves that are still to be made -/

/-- How often connections outside can still move: an arrived one twice, the waiting one once. -/
def Slots.moves {κ : Type} (slots : Slots κ) : Nat :=
  2 * slots.backlog.length + slots.waiting.toList.length

namespace Slots

variable {κ : Type} {slots : Slots κ} {conn : κ}

theorem moves_promote (h : slots.ready? = some conn) : slots.promote.moves + 1 = slots.moves := by
  simp [promote_of_ready? h, moves, (ready?_eq_some.mp h).2.2]

theorem moves_accept (h : slots.next? = some conn) : slots.accept.moves < slots.moves := by
  obtain ⟨-, hwaiting, hbacklog⟩ := next?_eq_some h
  have hlength : slots.backlog.length = slots.backlog.tail.length + 1 := by
    rw [hbacklog, List.tail_cons, List.length_cons]
  by_cases hlimit : slots.limit = 0
  · simp only [accept_of_unlimited h hlimit, moves]
    omega
  · simp only [accept_of_limited h hlimit, moves, hwaiting, Option.toList_some, Option.toList_none,
      List.length_singleton, List.length_nil]
    omega

theorem ready?_next?_of_moves_eq_zero (h : slots.moves = 0) :
    slots.ready? = none ∧ slots.next? = none := by
  have hbacklog : slots.backlog = [] := List.length_eq_zero_iff.mp (by simp only [moves] at h; omega)
  have hwaiting : slots.waiting = none := by simpa [moves, hbacklog] using h
  simp [ready?, next?, hbacklog, hwaiting]

theorem ready?_next?_of_stopped (h : slots.running = false) :
    slots.ready? = none ∧ slots.next? = none := by
  simp [ready?, next?, h]

/-- Every move that is still to be made is one of two of a connection that arrived. -/
theorem Ledger.moves_le {limit : Nat} {history : List (Occurrence κ)}
    (h : Ledger limit history slots) : slots.moves ≤ 2 * (reached .arrived history).length := by
  cases hrunning : slots.running with
  | true =>
    rw [h.arrivals hrunning, h.entries hrunning]
    simp only [moves, List.length_append]
    omega
  | false => simp [moves, h.stopped hrunning]

end Slots

namespace Listener

variable {listener later : Listener} {i limit : Nat} {history : List (Slots.Occurrence Nat)}

/-! ## Service and moves -/

theorem moves_answer (listener : Listener) (i : Nat) (target : HostPort) :
    (listener.answer i target).slots.moves = listener.slots.moves := by
  simp only [answer]
  split <;> rfl

/-- Going on can end a service, which moves nobody outside. -/
theorem moves_progress (listener : Listener) (i : Nat) :
    (listener.progress i).slots.moves = listener.slots.moves := by
  unfold progress
  split
  · rfl
  · rfl
  · exact moves_answer ..
  · split
    · rfl
    · exact moves_answer ..
    · rfl

theorem moves_enter (listener : Listener) (i : Nat) :
    (listener.enter i).slots.moves = listener.slots.moves :=
  moves_progress _ i

theorem moves_accept (listener : Listener) (i : Nat) :
    (listener.accept i).slots.moves = listener.slots.accept.moves := by
  simp only [accept]
  split
  · exact moves_enter _ i
  · rfl

/-! ## Settling -/

/-- Nobody can be accepted and nobody can enter service. -/
def Settled (listener : Listener) : Prop :=
  listener.slots.ready? = none ∧ listener.slots.next? = none

theorem settled_settleIn {fuel : Nat} (h : listener.slots.moves ≤ fuel) :
    (settleIn fuel listener).Settled := by
  induction fuel generalizing listener with
  | zero => exact Slots.ready?_next?_of_moves_eq_zero (Nat.le_zero.mp h)
  | succ fuel ih =>
    unfold settleIn
    split
    · rename_i hready
      refine ih (Nat.le_of_lt_succ (Nat.lt_of_lt_of_le ?_ h))
      rw [moves_enter, ← Slots.moves_promote hready]
      exact Nat.lt_succ_self _
    · rename_i hnext
      refine ih (Nat.le_of_lt_succ (Nat.lt_of_lt_of_le ?_ h))
      rw [moves_accept]
      exact Slots.moves_accept hnext
    · rename_i hready hnext
      exact ⟨hready, hnext⟩

theorem Accounted.settled_settle (h : Accounted limit history listener) :
    listener.settle.Settled := by
  refine settled_settleIn ?_
  simpa [h.arrived] using h.run.ledger.moves_le

theorem Accounted.settled_passUntil (h : Accounted limit history listener) (time : Nat) :
    (listener.passUntil time).Settled := by
  obtain ⟨_, hexpired⟩ := ((goes_to_time listener time).trans (goes_foldl_expire _ _)) history h
  exact hexpired.settled_settle

theorem Accounted.settled_waitIn {holds : Listener → Bool} {fuel : Nat}
    (h : Accounted limit history listener) (hsettled : listener.Settled) (hwait : waitIn holds fuel listener = some later) :
    later.Settled := by
  induction fuel generalizing listener history with
  | zero =>
    unfold waitIn at hwait
    split at hwait <;> cases hwait
    exact hsettled
  | succ fuel ih =>
    unfold waitIn at hwait
    split at hwait
    · cases hwait
      exact hsettled
    · split at hwait
      · rename_i time _
        obtain ⟨_, hpassed⟩ := goes_passUntil listener time history h
        exact ih hpassed (h.settled_passUntil time) hwait
      · cases hwait

theorem Accounted.settled_touch (h : Accounted limit history listener) (i : Nat)
    (change : Live → Live) : (listener.touch i change).Settled := by
  obtain ⟨_, hprogressed⟩ := ((goes_modify_live listener i _).trans (goes_progress _ i)) history h
  exact hprogressed.settled_settle

theorem Accounted.settled_connect {faults : OptionFaults} (h : Accounted limit history listener)
    (hconnect : listener.connect faults = some (later, i)) : later.Settled := by
  simp only [Listener.connect] at hconnect
  split at hconnect
  · rename_i hrunning
    cases hconnect
    obtain ⟨_, harrived⟩ := goes_arrive faults hrunning history h
    exact harrived.settled_settle
  · cases hconnect

theorem Accounted.settled_send {bytes : Bytes} (h : Accounted limit history listener)
    (hsend : listener.send i bytes = some later) : later.Settled := by
  unfold send at hsend
  split at hsend <;> cases hsend
  exact h.settled_touch i _

theorem Accounted.settled_receive {count : Nat} {received : Option Bytes}
    (h : Accounted limit history listener) (hsettled : listener.Settled)
    (hreceive : listener.receive i count = some (later, received)) : later.Settled := by
  simp only [receive] at hreceive
  split at hreceive
  · cases hreceive
  · rename_i waited hwait
    have hwaited : waited.Settled := h.settled_waitIn hsettled hwait
    split at hreceive <;> cases hreceive <;> exact hwaited

theorem Accounted.settled_isSilent (h : Accounted limit history listener)
    (hsettled : listener.Settled) (i : Nat) : (listener.isSilent i).1.Settled := by
  simp only [isSilent]
  split
  · rename_i waited hwait
    have hwaited : waited.Settled := h.settled_waitIn hsettled hwait
    split <;> exact hwaited
  · exact hsettled

theorem Accounted.settled_finish {received : Bytes} (h : Accounted limit history listener)
    (hfinish : listener.finish i = some (later, received)) : later.Settled := by
  unfold finish at hfinish
  split at hfinish
  · cases hfinish
  · rename_i waited hwait
    cases hfinish
    obtain ⟨_, htouched⟩ := goes_touch listener i Live.close history h
    have hwaited : waited.Settled := htouched.settled_waitIn (h.settled_touch i Live.close) hwait
    exact hwaited

theorem settled_failAccept (h : listener.Settled) (error : IoError) :
    (listener.failAccept error).Settled := by
  unfold failAccept
  split <;> exact h

theorem settled_cancel (h : listener.Settled) : listener.cancel.Settled := by
  unfold cancel
  split
  · exact Slots.ready?_next?_of_stopped rfl
  · exact h

theorem Move.settled (hmove : Move listener later) (h : Accounted limit history listener)
    (hsettled : listener.Settled) : later.Settled := by
  cases hmove with
  | connect faults happens => exact h.settled_connect happens
  | send happens => exact h.settled_send happens
  | receive happens => exact h.settled_receive hsettled happens
  | isSilent i => exact h.settled_isSilent hsettled i
  | finish happens => exact h.settled_finish happens
  | drop i => exact h.settled_touch i _
  | failAccept error => exact settled_failAccept hsettled error
  | cancel => exact settled_cancel hsettled

theorem Reachable.settled {address : BoundAddress} {settings : ListenerSettings}
    (h : Reachable address settings limit listener) : listener.Settled := by
  induction h with
  | refl => exact Slots.ready?_next?_of_moves_eq_zero rfl
  | tail hbefore hmove ih =>
    obtain ⟨_, haccounted⟩ := Reachable.accounted hbefore
    exact hmove.settled haccounted ih

/-- Nobody waits while a slot is free: it would have been taken when the listener settled. -/
theorem Settled.length_serving (hsettled : listener.Settled) (h : Accounted limit history listener)
    (hwaiting : listener.slots.waiting = some i) : listener.slots.serving.length = limit := by
  have hpos : 0 < limit := Nat.pos_of_ne_zero fun hzero => by
    simp [(h.run.orderly.unlimited hzero).1] at hwaiting
  refine Nat.le_antisymm (h.run.orderly.serving_le hpos) (Nat.le_of_not_lt fun hroom => ?_)
  have hready := (h.run.orderly.may_enter i hwaiting).1 hroom
  simp [hsettled.1] at hready

/-! ## The promise -/

/-- **Admission**: whatever happens, in any order, at most as many connections as the limit allows are
in service and at most one more is accepted; they enter service in the order of acceptance, once each,
and all of them do save one that waits when the listener stops. Whatever ends a service in a listener,
with success or without, is one end of it in the history of its slots and gives one slot back; no
connection leaves service in another way; and whatever is done to a listener goes on in that history.
So every listener has a history that says how far each connection has come, and lets nobody wait while
a slot is free. -/
theorem admission (limit : Nat) :
    (∀ slots : Slots Nat, ReflTransGen Slots.Step { limit } slots ↔
      ∃ history, Slots.Run { limit } history slots) ∧
    (∀ (history : List (Slots.Occurrence Nat)) (slots : Slots Nat),
      Slots.Run { limit } history slots → Slots.Orderly limit history slots) ∧
    (∀ history listener, Accounted limit history listener →
      (∀ i later, Ends listener i later →
        Accounted limit (history ++ [.reached i .finished]) later ∧
          later.slots.serving.length + 1 = listener.slots.serving.length) ∧
      (∀ i later, later = listener.progress i ∨ later = listener.expire i →
        (listener.conn i).inService = true → (later.conn i).inService = false →
        Ends listener i later) ∧
      ∀ later, Move listener later → ∃ seen, Accounted limit (history ++ seen) later) ∧
    ∀ address settings listener, Reachable address settings limit listener →
      (∃ history, Accounted limit history listener) ∧
      ∀ i, listener.slots.waiting = some i → listener.slots.serving.length = limit := by
  refine ⟨fun _ => Slots.reachable_iff_run, fun _ _ => Slots.Run.orderly, ?_, ?_⟩
  · intro history listener haccounted
    exact ⟨fun i later hends => ⟨hends.accounted haccounted, hends.length_serving haccounted⟩,
      fun i later => ends_of_leaves, fun later hmove => hmove.goes history haccounted⟩
  · intro address settings listener hreachable
    obtain ⟨history, haccounted⟩ := hreachable.accounted
    exact ⟨⟨history, haccounted⟩, fun i => hreachable.settled.length_serving haccounted⟩

/-- Two clients come to a listener with one slot. It is stopped while the second one waits, or else the
time of the first one is over. -/
theorem admission_stopped_while_one_waits :
    Slots.Orderly 1
        [.reached 0 .arrived, .reached 0 .accepted, .reached 0 .entered, .reached 1 .arrived,
          .reached 1 .accepted, .cancelled, .reached 0 .finished]
        ({ limit := 1, running := false } : Slots Nat) ∧
      ∃ once twice : Listener,
        (start ⟨.v4 ⟨127, 0, 0, 1⟩ 8080, false⟩ ⟨.http, Tls.reader, .echo, 5000, true⟩ 1).connect =
            some (once, 0) ∧
          once.connect = some (twice, 1) ∧ twice.slots.waiting = some 1 ∧
          twice.slots.serving.length = 1 ∧
          (expire { twice with now := 5000 } 0).slots.serving.length = 0 := by
  constructor
  · have hfirst : Slots.Run ({ limit := 1 } : Slots Nat) _ _ := Slots.Run.start.step (.arrive 0 rfl)
    have hentered := (hfirst.step (.accept rfl (by decide))).step (.promote rfl)
    have hwaiting := (hentered.step (.arrive 1 rfl)).step (.accept rfl (by decide))
    have hserving : 0 ∈ [0] := List.mem_singleton_self 0
    exact (admission 1).2.1 _ _ ((hwaiting.step (.cancel rfl)).step (.finish hserving))
  · refine ⟨_, _, rfl, rfl, rfl, ?_⟩
    have honce : Reachable ⟨.v4 ⟨127, 0, 0, 1⟩ 8080, false⟩ ⟨.http, Tls.reader, .echo, 5000, true⟩ 1
        _ := .single (.connect {} rfl)
    obtain ⟨⟨history, htwice⟩, hfull⟩ := (admission 1).2.2.2 _ _ _ (honce.tail (.connect {} rfl))
    have hlate := htwice.of_sameStages (sameStages_now _ 5000) rfl
    have hfreed := (((admission 1).2.2.1 history _ hlate).1 0 _ (.expire rfl (by decide))).2
    exact ⟨hfull 1 rfl, Nat.succ.inj (hfreed.trans (hfull 1 rfl))⟩

end Listener

end SniffProxy
