import SniffProxy.Stream.Script

/-!
# Partners

A partner is a peer that waits for its turn: it takes a number of bytes, sends some, takes more, and
so on; then it ends its sending side and reads to the end. Unlike a scripted stream it answers only
what it was sent. Its patience is limited: where it waits for more bytes and none come, it gives up.

* `Partner.hear` — bytes arrive at the partner, which plays on as far as they go.
* `Partner.giveUp` — no more bytes arrive for its turn.
* `Session.converse` — a session with a partner.
* `Partner.toScript` — what is left of a partner once everything it will hear is known.
-/

namespace SniffProxy

/-- One step of a partner. -/
inductive Turn where
  /-- Takes exactly so many bytes. -/
  | take (count : Nat)
  | say (bytes : Bytes)
  deriving DecidableEq, Repr

/-- A peer that plays turns. -/
structure Partner where
  turns : List Turn
  /-- All bytes that have arrived. -/
  heard : Bytes := []
  /-- How many of them the turns have not taken. -/
  fresh : Nat := 0
  /-- What was sent and not yet read. -/
  said : Bytes := []
  deriving DecidableEq, Repr

namespace Partner

/-- Plays turns as far as the bytes go: what is left of the turns and bytes, and what is said. -/
def playTurns : List Turn → (fresh : Nat) → List Turn × Nat × Bytes
  | [], fresh => ([], fresh, [])
  | .say bytes :: rest, fresh =>
    match playTurns rest fresh with
    | (turns, fresh, said) => (turns, fresh, bytes ++ said)
  | .take count :: rest, fresh =>
    if count ≤ fresh then playTurns rest (fresh - count) else (.take count :: rest, fresh, [])

/-- Plays on as far as possible. -/
def play (partner : Partner) : Partner :=
  match playTurns partner.turns partner.fresh with
  | (turns, fresh, said) => { partner with turns, fresh, said := partner.said ++ said }

/-- A partner at the start of its turns. -/
def ofTurns (turns : List Turn) : Partner :=
  play { turns }

/-- Bytes arrive. -/
def hear (partner : Partner) (bytes : Bytes) : Partner :=
  play { partner with
    heard := partner.heard ++ bytes
    fresh := partner.fresh + bytes.length }

/-- No more bytes arrive. A turn that still waits for some is the last one, and what arrived for it
is lost. -/
def giveUp (partner : Partner) : Partner :=
  if partner.turns.isEmpty then partner
  else
    { partner with
      turns := []
      heard := partner.heard.take (partner.heard.length - partner.fresh)
      fresh := 0 }

/-- The scripted stream that a partner is for someone of whom it hears just these bytes. -/
def toScript (partner : Partner) (bytes : Bytes) : Script where
  events := [⟨0, .data (partner.hear bytes).said⟩]

end Partner

/-- Runs a session with a partner. When both wait, the partner gives up, and its side ends. -/
def Session.converse {α : Type} : Session α → Partner → α × Partner × List LogEvent
  | .done value, partner => (value, partner, [])
  | .read size next, partner =>
    if size = 0 then converse (next (.ok [])) partner
    else if partner.said ≠ [] then
      converse (next (.ok (partner.said.take size)))
        { partner with said := partner.said.drop size }
    else converse (next (.ok [])) partner.giveUp
  | .write data next, partner => converse (next (.ok data.length)) (partner.hear data)
  | .flush next, partner => converse (next (.ok ())) partner
  | .report event next, partner =>
    match converse next partner with
    | (value, partner, log) => (value, partner, event :: log)

end SniffProxy
