import SniffProxy.Stream.Session

/-!
# Scripted streams

A scripted stream is a peer that is known in advance: what it delivers and when, how it ends, and
how it takes what is written to it. Time is counted in milliseconds and passes only while a session
waits.

* `Script.read`, `Script.write`, `Script.flush` — the answer to one request.
* `Session.run` — a session against a script, with an optional deadline.
-/

namespace SniffProxy

/-! ## What a peer delivers -/

/-- What happens at one moment on the reading side. -/
inductive Delivery where
  | data (bytes : Bytes)
  /-- The end of the stream, for ever. -/
  | endOfStream
  /-- One read fails. -/
  | failure (error : IoError)
  deriving DecidableEq, Repr

/-- A delivery and the time from which it is there. -/
structure ReadEvent where
  due : Nat
  delivery : Delivery
  deriving DecidableEq, Repr

/-- What a stream does once its events are used up. -/
inductive Afterwards where
  | closed
  | silent
  deriving DecidableEq, Repr

/-- How a stream takes what is written to it. -/
structure WriteLimits where
  /-- The most bytes that one write accepts. -/
  perWrite : Option Nat := none
  /-- The total after which every write fails. -/
  failAt : Option Nat := none
  /-- The total after which no write ever returns. -/
  stallAt : Option Nat := none
  flushFails : Bool := false
  deriving DecidableEq, Repr

/-- A stream with a known peer. -/
structure Script where
  events : List ReadEvent := []
  afterwards : Afterwards := .closed
  limits : WriteLimits := {}
  /-- How many bytes were accepted so far. -/
  accepted : Nat := 0
  /-- What each write accepted, the latest first. -/
  writtenRev : List Bytes := []
  deriving DecidableEq, Repr

namespace Script

/-- What each write accepted, in order. -/
def written (script : Script) : List Bytes :=
  script.writtenRev.reverse

/-- All accepted bytes. -/
def received (script : Script) : Bytes :=
  script.written.flatten

/-- The data not yet read. -/
def unread (script : Script) : Bytes :=
  script.events.flatMap fun event =>
    match event.delivery with
    | .data bytes => bytes
    | _ => []

/-! ## Reading -/

/-- The answer to a read: when it is there, what it is and what is left, or never. -/
inductive ReadAnswer where
  | ready (time : Nat) (answer : Except IoError Bytes) (events : List ReadEvent)
  | never

/-- Reads at most `size` bytes from the events, starting at time `now`. One read never joins two
events; an event without data is passed over. -/
def readEvents (afterwards : Afterwards) (size : Nat) : (now : Nat) → List ReadEvent → ReadAnswer
  | now, [] =>
    match afterwards with
    | .closed => .ready now (.ok []) []
    | .silent => .never
  | now, event :: rest =>
    let time := max now event.due
    match event.delivery with
    | .data [] => readEvents afterwards size time rest
    | .data (b :: bytes) =>
      if size < (b :: bytes).length then
        .ready time (.ok ((b :: bytes).take size))
          (⟨event.due, .data ((b :: bytes).drop size)⟩ :: rest)
      else .ready time (.ok (b :: bytes)) rest
    | .endOfStream => .ready time (.ok []) (event :: rest)
    | .failure error => .ready time (.error error) rest

/-- The answer to a read; a read of no bytes returns at once. -/
def read (script : Script) (size now : Nat) : ReadAnswer :=
  if size = 0 then .ready now (.ok []) script.events
  else readEvents script.afterwards size now script.events

/-! ## Writing -/

/-- The answer to a write, or never. -/
inductive WriteAnswer where
  | ready (answer : Except IoError Nat) (script : Script)
  | never

/-- The smaller of a number and a limit, if there is one. -/
def capAt (n : Nat) : Option Nat → Nat
  | none => n
  | some limit => min n limit

/-- Whether a total has reached its limit. -/
def reached (total : Nat) : Option Nat → Bool
  | none => false
  | some limit => limit ≤ total

/-- How many of the offered bytes a write accepts. -/
def acceptable (script : Script) (offered : Nat) : Nat :=
  let byCall := capAt offered script.limits.perWrite
  let untilFailure := capAt byCall (script.limits.failAt.map (· - script.accepted))
  capAt untilFailure (script.limits.stallAt.map (· - script.accepted))

/-- The answer to a write. -/
def write (script : Script) (data : Bytes) : WriteAnswer :=
  if reached script.accepted script.limits.failAt then .ready (.error .brokenPipe) script
  else if reached script.accepted script.limits.stallAt then .never
  else
    let count := script.acceptable data.length
    .ready (.ok count)
      { script with
        accepted := script.accepted + count
        writtenRev := data.take count :: script.writtenRev }

/-- The answer to a flush. -/
def flush (script : Script) : Except IoError Unit :=
  if script.limits.flushFails then .error .brokenPipe else .ok ()

end Script

/-! ## Running a session -/

/-- What became of a session on a scripted stream. -/
inductive Outcome (α : Type) where
  | finished (value : α) (time : Nat) (script : Script) (log : List LogEvent)
  /-- The session still waits when its deadline comes, or for ever if it has none. -/
  | waiting (script : Script) (log : List LogEvent)

/-- The outcome with an event in front of its log. -/
def Outcome.logged {α : Type} (event : LogEvent) : Outcome α → Outcome α
  | finished value time script log => finished value time script (event :: log)
  | waiting script log => waiting script (event :: log)

/-- Whether a time lies after a deadline. -/
def isLate (time : Nat) : Option Nat → Bool
  | none => false
  | some deadline => deadline < time

/-- Runs a session on a scripted stream from time `now` until it finishes or waits beyond the
deadline. -/
def Session.run {α : Type} (deadline : Option Nat) :
    Session α → (now : Nat) → Script → Outcome α
  | .done value, now, script => .finished value now script []
  | .read size next, now, script =>
    match script.read size now with
    | .never => .waiting script []
    | .ready time answer events =>
      if isLate time deadline then .waiting script []
      else run deadline (next answer) time { script with events := events }
  | .write data next, now, script =>
    match script.write data with
    | .never => .waiting script []
    | .ready answer script' => run deadline (next answer) now script'
  | .flush next, now, script => run deadline (next script.flush) now script
  | .report event next, now, script => (run deadline next now script).logged event

end SniffProxy
