import SniffProxy.Stream.Session

/-!
# Live streams

A live stream belongs to a peer of whom only the past is known: what it has sent so far, and whether
it has ended its sending side. A session on it goes on until it needs more than that, and can be
taken up again when more has come.

* `Live.receive`, `Live.close` — what the peer does.
* `Session.advance` — a session goes on as far as possible.
-/

namespace SniffProxy

/-- A stream with an unknown future. -/
structure Live where
  /-- What has come and was not read. -/
  inbox : Bytes := []
  /-- Nothing more will come. -/
  ended : Bool := false
  /-- What was written and not yet taken by the peer. -/
  outbox : Bytes := []
  deriving DecidableEq, Repr

namespace Live

/-- Bytes come in. -/
def receive (live : Live) (bytes : Bytes) : Live :=
  { live with inbox := live.inbox ++ bytes }

/-- The peer ends its sending side. -/
def close (live : Live) : Live :=
  { live with ended := true }

/-- Bytes are written. -/
def push (live : Live) (bytes : Bytes) : Live :=
  { live with outbox := live.outbox ++ bytes }

end Live

/-- What a session needs before it can go on, or its value. -/
inductive Advance (α : Type) where
  | done (value : α) (live : Live) (log : List LogEvent)
  /-- The rest of the session begins with a read. -/
  | blocked (rest : Session α) (live : Live) (log : List LogEvent)

/-- An advance with an event in front of its log. -/
def Advance.logged {α : Type} (event : LogEvent) : Advance α → Advance α
  | done value live log => done value live (event :: log)
  | blocked rest live log => blocked rest live (event :: log)

/-- Goes on with a session as far as the stream allows. -/
def Session.advance {α : Type} : Session α → Live → Advance α
  | .done value, live => .done value live []
  | .read size next, live =>
    if size = 0 then advance (next (.ok [])) live
    else if live.inbox ≠ [] then
      advance (next (.ok (live.inbox.take size))) { live with inbox := live.inbox.drop size }
    else if live.ended then advance (next (.ok [])) live
    else .blocked (.read size next) live []
  | .write data next, live => advance (next (.ok data.length)) (live.push data)
  | .flush next, live => advance (next (.ok ())) live
  | .report event next, live => (advance next live).logged event

end SniffProxy
