import SniffProxy.Stream.Session

/-!
# Peeking

A sniffer reads the first bytes of a stream and whoever comes after it has to see them again. A
`Peek` stands between the two and the stream: while it records, it keeps a copy of every byte read;
once it replays, reads are served from the copy until it is used up, and only then from the stream.

* `Peek.serve` — what a read gets from the copy, if it gets anything there.
* `Peek.record` — the copy after a read on the stream itself.
* `Peek.read` — one read through a peek.
-/

namespace SniffProxy

/-- The copy of what was read from a stream and what is done with it. -/
structure Peek where
  buffer : Bytes
  recording : Bool
  replaying : Bool
  deriving DecidableEq, Repr

namespace Peek

/-- A new peek records. -/
def start : Peek := ⟨[], true, false⟩

/-- A peek that passes everything through. -/
def transparent : Peek := ⟨[], false, false⟩

/-- Stops recording; the copy stays. -/
def stop (peek : Peek) : Peek :=
  { peek with recording := false }

/-- Serves the copy before anything further, and stops recording, so that nothing is recorded
twice. -/
def replay (peek : Peek) : Peek :=
  { peek with recording := false, replaying := true }

/-- What a read of `size` bytes gets from the copy, and the peek after it. Without a copy to serve
the read goes to the stream. -/
def serve (peek : Peek) (size : Nat) : Option (Bytes × Peek) :=
  if peek.replaying = true ∧ peek.buffer ≠ [] then
    let rest := peek.buffer.drop size
    some (peek.buffer.take size, { peek with buffer := rest, replaying := !rest.isEmpty })
  else none

/-- The peek after a read on the stream itself. -/
def record (peek : Peek) : Except IoError Bytes → Peek
  | .ok bytes => if peek.recording then { peek with buffer := peek.buffer ++ bytes } else peek
  | .error _ => peek

/-- One read through a peek. -/
def read (peek : Peek) (size : Nat) : Session (Except IoError Bytes × Peek) :=
  match peek.serve size with
  | some (bytes, rest) => .done (.ok bytes, rest)
  | none => .read size fun answer => .done (answer, peek.record answer)

/-- A session that reads through a peek. -/
def through {α : Type} : Session α → Peek → Session (α × Peek)
  | .done value, peek => .done (value, peek)
  | .read size next, peek =>
    match peek.serve size with
    | some (bytes, rest) => through (next (.ok bytes)) rest
    | none => .read size fun answer => through (next answer) (peek.record answer)
  | .write data next, peek => .write data fun answer => through (next answer) peek
  | .flush next, peek => .flush fun answer => through (next answer) peek
  | .report event next, peek => .report event (through next peek)

end Peek

end SniffProxy
