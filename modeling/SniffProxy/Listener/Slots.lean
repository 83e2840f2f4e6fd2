/-!
# Slots

The admission of connections by a listener with a limit. Connections are accepted one at a time; an
accepted connection waits until fewer than the limit are in service, and nobody else is accepted
meanwhile. Without a limit nobody waits.

* `Slots.arrive`, `Slots.accept`, `Slots.promote`, `Slots.finish`, `Slots.cancel` — what can happen.
* `Slots.Step` — the relation that these make up, in any order.
-/

namespace SniffProxy

/-- Where the connections of a listener are. -/
structure Slots (κ : Type) where
  /-- The most connections in service; zero for no limit. -/
  limit : Nat
  running : Bool := true
  /-- Connected and not yet accepted, in order. -/
  backlog : List κ := []
  /-- Accepted and not yet in service. -/
  waiting : Option κ := none
  serving : List κ := []
  deriving DecidableEq, Repr

namespace Slots

variable {κ : Type} [DecidableEq κ]

/-- Whether one more connection may enter service. -/
def isFree (slots : Slots κ) : Bool :=
  slots.limit = 0 || slots.serving.length < slots.limit

/-- A connection arrives. -/
def arrive (slots : Slots κ) (conn : κ) : Slots κ :=
  { slots with backlog := slots.backlog ++ [conn] }

/-- The next connection to be accepted, if it is time for one. -/
def next? (slots : Slots κ) : Option κ :=
  if slots.running = true ∧ slots.waiting = none then slots.backlog.head? else none

/-- Accepts the next connection. Without a limit it enters service at once. -/
def accept (slots : Slots κ) : Slots κ :=
  match slots.next? with
  | none => slots
  | some conn =>
    if slots.limit = 0 then
      { slots with backlog := slots.backlog.tail, serving := slots.serving ++ [conn] }
    else { slots with backlog := slots.backlog.tail, waiting := some conn }

/-- The waiting connection, if a slot is free for it. -/
def ready? (slots : Slots κ) : Option κ :=
  if slots.running = true ∧ slots.isFree = true then slots.waiting else none

/-- The waiting connection enters service. -/
def promote (slots : Slots κ) : Slots κ :=
  match slots.ready? with
  | none => slots
  | some conn => { slots with waiting := none, serving := slots.serving ++ [conn] }

/-- A connection in service finishes. -/
def finish (slots : Slots κ) (conn : κ) : Slots κ :=
  { slots with serving := slots.serving.erase conn }

/-- The listener stops. Whoever is not in service is dropped. -/
def cancel (slots : Slots κ) : Slots κ :=
  { slots with running := false, backlog := [], waiting := none }

/-- What can happen to a listener. -/
inductive Step : Slots κ → Slots κ → Prop where
  | arrive {slots : Slots κ} (conn : κ) (running : slots.running = true) :
    Step slots (slots.arrive conn)
  | accept {slots : Slots κ} {conn : κ} (next : slots.next? = some conn) : Step slots slots.accept
  | promote {slots : Slots κ} {conn : κ} (ready : slots.ready? = some conn) :
    Step slots slots.promote
  | finish {slots : Slots κ} {conn : κ} (serving : conn ∈ slots.serving) :
    Step slots (slots.finish conn)
  | cancel {slots : Slots κ} (running : slots.running = true) : Step slots slots.cancel

end Slots

end SniffProxy
