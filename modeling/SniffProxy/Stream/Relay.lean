import SniffProxy.Stream.Peek
import SniffProxy.Stream.Script

/-!
# Relaying

A relay copies two streams into each other until one of them ends, one operation fails, or neither
direction has moved anything for too long. The two directions share nothing but the clock, so each
is a `Flow` of its own: the moves it makes, with their times, and how it ends if it does. A relay is
then the two flows cut off at the earliest end. Where several things happen at one moment, it is
left to `Turns` which of them comes first, and so whether the others come at all.

* `Flow.ofSource` — copying one stream into another through a buffer of fixed capacity.
* `Turns.reach` — what a part has done when a round ends before its turn or behind it.
* `idleEnd` — the moment at which the idle check gives up.
* `Relay.run` — both directions and the idle check.
-/

namespace SniffProxy

/-! ## One direction -/

/-- What a direction does at one moment. -/
inductive Move where
  /-- It takes bytes from its source into the empty buffer. -/
  | took (bytes : Bytes)
  /-- One write hands bytes to its sink. -/
  | gave (bytes : Bytes)
  deriving DecidableEq, Repr

/-- The bytes of a move. -/
def Move.bytes : Move → Bytes
  | took bytes => bytes
  | gave bytes => bytes

/-- The moves of one direction with their times, and its end. A direction without an end waits for
ever, for its source or for its sink. -/
structure Flow where
  moves : List (Nat × Move)
  ending : Option (Nat × Except IoError Unit)

namespace Flow

/-- A flow with more moves in front. -/
def after (moves : List (Nat × Move)) (flow : Flow) : Flow :=
  { flow with moves := moves ++ flow.moves }

/-- Why a sink takes no more. -/
inductive Halt where
  | failed (error : IoError)
  | stalled
  deriving DecidableEq, Repr

/-- The flow that a halt ends. -/
def ofHalt (time : Nat) : Halt → Flow
  | .failed error => ⟨[], some (time, .error error)⟩
  | .stalled => ⟨[], none⟩

/-- Hands bytes to a sink, write after write, until all are accepted. Every write that continues
the loop takes something, so as many writes as bytes are enough. -/
def give (time : Nat) : (fuel : Nat) → Script → Bytes → List (Nat × Move) × Except Halt Script
  | _, sink, [] => ([], .ok sink)
  | 0, _, _ :: _ => ([], .error (.failed .writeZero))
  | fuel + 1, sink, data =>
    match sink.write data with
    | .never => ([], .error .stalled)
    | .ready (.error error) _ => ([], .error (.failed error))
    | .ready (.ok 0) _ => ([(time, .gave [])], .error (.failed .writeZero))
    | .ready (.ok count) sink' =>
      let rest := give time fuel sink' (data.drop count)
      ((time, .gave (data.take count)) :: rest.1, rest.2)

/-- Cuts bytes into pieces of the capacity and a shorter last one. -/
def pieces (capacity : Nat) : (fuel : Nat) → Bytes → List Bytes
  | _, [] => []
  | 0, _ :: _ => []
  | fuel + 1, data => data.take capacity :: pieces capacity fuel (data.drop capacity)

/-- Takes pieces one after another, each after the one before it is handed over. -/
def pass (time : Nat) : Script → List Bytes → List (Nat × Move) × Except Halt Script
  | sink, [] => ([], .ok sink)
  | sink, piece :: rest =>
    match give time piece.length sink piece with
    | (moves, .error halt) => ((time, .took piece) :: moves, .error halt)
    | (moves, .ok sink') =>
      let more := pass time sink' rest
      ((time, .took piece) :: (moves ++ more.1), more.2)

/-- Takes bytes that are there at one time through the buffer into the sink. -/
def passBytes (capacity time : Nat) (sink : Script) (bytes : Bytes) :
    List (Nat × Move) × Except Halt Script :=
  pass time sink (pieces capacity bytes.length bytes)

/-- How a flow ends that has to wait: what was handed over since the last flush is flushed first,
and a failure of that is the end. -/
def endWaiting (unflushed : Bool) (now : Nat) (sink : Script) :
    Option (Nat × Except IoError Unit) :=
  if unflushed then
    match sink.flush with
    | .ok _ => none
    | .error error => some (now, .error error)
  else none

/-- Copies the events of a source into a sink from time `now` on. The end of the source flushes the
sink and ends the flow; a read that was only interrupted is tried again. -/
def ofEvents (capacity : Nat) (afterwards : Afterwards) :
    (unflushed : Bool) → (now : Nat) → Script → List ReadEvent → Flow
  | unflushed, now, sink, [] =>
    match afterwards with
    | .closed => ⟨[], some (now, sink.flush)⟩
    | .silent => ⟨[], endWaiting unflushed now sink⟩
  | unflushed, now, sink, event :: rest =>
    let waits := decide (now < event.due)
    match (if waits then endWaiting unflushed now sink else none) with
    | some ending => ⟨[], some ending⟩
    | none =>
      let time := max now event.due
      let pending := unflushed && !waits
      match event.delivery with
      | .endOfStream => ⟨[], some (time, sink.flush)⟩
      | .failure .interrupted => ofEvents capacity afterwards pending time sink rest
      | .failure error => ⟨[], some (time, .error error)⟩
      | .data bytes =>
        match passBytes capacity time sink bytes with
        | (moves, .ok sink') =>
          after moves (ofEvents capacity afterwards (pending || !bytes.isEmpty) time sink' rest)
        | (moves, .error halt) => after moves (ofHalt time halt)

/-- Copies a source into a sink: first what the peek in front of the source still has to replay,
then the stream. A buffer without capacity reads nothing, which looks like the end. -/
def ofSource (capacity start : Nat) (peek : Peek) (source sink : Script) : Flow :=
  if capacity = 0 then ⟨[], some (start, sink.flush)⟩
  else
    let kept := if peek.replaying then peek.buffer else []
    match passBytes capacity start sink kept with
    | (moves, .ok sink') =>
      after moves (ofEvents capacity source.afterwards (!kept.isEmpty) start sink' source.events)
    | (moves, .error halt) => after moves (ofHalt start halt)

/-- The moves before a time. -/
def before (flow : Flow) (time : Nat) : List Move :=
  (flow.moves.filter fun move => move.1 < time).map fun move => move.2

/-- The times at which bytes moved. -/
def activity (flow : Flow) : List Nat :=
  (flow.moves.filter fun move => !move.2.bytes.isEmpty).map fun move => move.1

end Flow

namespace Move

/-- The pieces taken by some moves. -/
def taken (moves : List Move) : List Bytes :=
  moves.filterMap fun move =>
    match move with
    | took bytes => some bytes
    | gave _ => none

/-- The pieces handed over by some moves, one for each write. -/
def given (moves : List Move) : List Bytes :=
  moves.filterMap fun move =>
    match move with
    | took _ => none
    | gave bytes => some bytes

end Move

/-! ## Taking turns -/

/-- What goes on in a relay side by side. -/
inductive Part where
  /-- Copying the client's stream into the outbound one. -/
  | upload
  | download
  /-- The idle check. -/
  | check
  deriving DecidableEq, Repr

/-- Whose turn is first at each moment; the other parts follow in a fixed order. The turn comes to
all parts until one of them is through, and ends the relay: those behind it get no turn any more. -/
abbrev Turns := Nat → Part

/-- The place of a part in a round that begins with another one: upload, download and check follow
each other, and upload follows the check. -/
def Part.place : (part first : Part) → Nat
  | upload, upload | download, download | check, check => 0
  | download, upload | check, download | upload, check => 1
  | check, upload | upload, download | download, check => 2

/-- How far a part has come if the round of a moment ends with the turn of `last`: it has made its
moves before this time. -/
def Turns.reach (turns : Turns) (time : Nat) (last part : Part) : Nat :=
  if part.place (turns time) ≤ last.place (turns time) then time + 1 else time

/-! ## The idle check -/

/-- Bytes that moved: when, and whether the idle check of this moment had its turn before. -/
structure Stir where
  time : Nat
  late : Bool
  deriving DecidableEq, Repr

namespace Stir

/-- Whether a check at some time comes after the bytes moved. -/
def seenBy (check : Nat) (stir : Stir) : Bool :=
  stir.time < check || (stir.time = check && !stir.late)

/-- The order in which checks come to see what moved. -/
def notAfter (stir next : Stir) : Bool :=
  stir.time < next.time || (stir.time = next.time && (!stir.late || next.late))

end Stir

/-- The check never sleeps longer than this, in milliseconds. -/
def longestIdleCheck : Nat := 30000

/-- The time between two idle checks: the timeout itself, but at least a second and at most half a
minute. -/
def idlePeriod (timeout : Nat) : Nat :=
  max 1000 (min longestIdleCheck timeout)

/-- The idle seconds after which a pair is given up. -/
def idleSeconds (timeout : Nat) : Nat :=
  max 1 (timeout / 1000)

/-- The first check not before a time. -/
def checkFrom (period time : Nat) : Nat :=
  max 1 ((time + period - 1) / period) * period

/-- The check that finds the pair idle: the first one at least `seconds` after the last activity
that it sees, where activity is dated by whole seconds. The times count from the start of the relay
and are in order; `last` is the second of the activity before them. -/
def idleEnd (period seconds : Nat) : (last : Nat) → List Stir → Nat
  | last, [] => checkFrom period (1000 * (last + seconds))
  | last, stir :: rest =>
    let check := checkFrom period (1000 * (last + seconds))
    if stir.seenBy check then idleEnd period seconds (stir.time / 1000) rest else check

/-! ## Both directions -/

/-- The bytes read from each side and whether a direction reached its end. -/
structure Tally where
  up : Nat
  down : Nat
  completed : Bool
  deriving DecidableEq, Repr

/-- What became of a relay. -/
structure RelayReport where
  result : Except IoError Tally
  finishedAt : Nat
  /-- What each write on the client accepted. -/
  clientReceived : List Bytes
  /-- What each write on the outbound stream accepted. -/
  outboundReceived : List Bytes

/-- A part that is through: when, and with which failure, or else whether a direction reached its
end. -/
structure RelayEnd where
  time : Nat
  part : Part
  result : Except IoError Bool

namespace RelayEnd

/-- A direction that is through. -/
def ofDirection (part : Part) (ending : Nat × Except IoError Unit) : RelayEnd where
  time := ending.1
  part := part
  result := ending.2.map fun _ => true

/-- The idle check that gives a pair up. -/
def ofIdle (time : Nat) : RelayEnd where
  time := time
  part := .check
  result := .ok false

end RelayEnd

namespace Turns

/-- Whether one end comes before another one: at an earlier moment, or earlier in the round of the
same one. -/
def sooner (turns : Turns) (x y : RelayEnd) : Bool :=
  x.time < y.time ||
    (x.time = y.time && x.part.place (turns x.time) < y.part.place (turns x.time))

/-- The first of two ends, if the second one comes at all. -/
def firstEnd (turns : Turns) (x : RelayEnd) : Option RelayEnd → RelayEnd
  | some y => if turns.sooner y x then y else x
  | none => x

end Turns

namespace Relay

/-- The activity of a direction as the idle check comes to see it, counted from the start. -/
def stirs (turns : Turns) (start : Nat) (part : Part) (flow : Flow) : List Stir :=
  flow.activity.map fun time => ⟨time - start, turns.reach time .check part = time⟩

/-- When the idle check would end a pair of flows, if nothing ended them before. -/
def idleTime (turns : Turns) (start timeout : Nat) (up down : Flow) : Nat :=
  let all := stirs turns start .upload up ++ stirs turns start .download down
  start + idleEnd (idlePeriod timeout) (idleSeconds timeout) 0 (all.mergeSort Stir.notAfter)

/-- When and how two flows end. -/
def ending (turns : Turns) (start timeout : Nat) (up down : Flow) : RelayEnd :=
  let idle := RelayEnd.ofIdle (idleTime turns start timeout up down)
  turns.firstEnd (turns.firstEnd idle (down.ending.map (RelayEnd.ofDirection .download)))
    (up.ending.map (RelayEnd.ofDirection .upload))

/-- The moves of a direction in a relay that ends so. -/
def movesOf (turns : Turns) (stop : RelayEnd) (part : Part) (flow : Flow) : List Move :=
  flow.before (turns.reach stop.time stop.part part)

/-- The report on two flows. -/
def report (turns : Turns) (start timeout : Nat) (up down : Flow) : RelayReport :=
  let stop := ending turns start timeout up down
  let upMoves := movesOf turns stop .upload up
  let downMoves := movesOf turns stop .download down
  let count := fun moves => (Move.taken moves).flatten.length
  { result := stop.result.map fun completed => ⟨count upMoves, count downMoves, completed⟩
    finishedAt := stop.time
    clientReceived := Move.given downMoves
    outboundReceived := Move.given upMoves }

/-- Relays a client, whose first bytes a peek may still hold, and an outbound stream from time
`start`. -/
def run (turns : Turns) (capacity timeout start : Nat) (peek : Peek) (client outbound : Script) :
    RelayReport :=
  report turns start timeout
    (Flow.ofSource capacity start peek client outbound)
    (Flow.ofSource capacity start .transparent outbound client)

end Relay

end SniffProxy
