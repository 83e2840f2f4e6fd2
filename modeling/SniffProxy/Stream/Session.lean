import SniffProxy.Bytes
import SniffProxy.Log

/-!
# Sessions

A session is what one party does with a stream: it reads, writes, flushes, reports, and finally
answers. It says nothing about the stream, so the same handshake runs against a scripted peer,
against the other side of the same protocol, or in the middle of a server.

* `Session` — the requests and, for each, how the session goes on with the answer.
* `Session.muted` — the session without its writes.
* `readExact`, `readByte`, `writeAll` — the usual loops over single reads and writes.
* `Handshake` — a session that may fail with a `ProxyError`.
-/

namespace SniffProxy

/-- A program over one stream with a final value. -/
inductive Session (α : Type) where
  | done (value : α)
  /-- Asks for at most `size` bytes; no bytes means the end of the stream. -/
  | read (size : Nat) (next : Except IoError Bytes → Session α)
  /-- Offers bytes; the answer is how many were accepted. -/
  | write (data : Bytes) (next : Except IoError Nat → Session α)
  | flush (next : Except IoError Unit → Session α)
  | report (event : LogEvent) (next : Session α)

namespace Session

/-- Runs a session and then the one that its value selects. -/
def bind {α β : Type} : Session α → (α → Session β) → Session β
  | done value, f => f value
  | read size next, f => read size fun answer => bind (next answer) f
  | write data next, f => write data fun answer => bind (next answer) f
  | flush next, f => flush fun answer => bind (next answer) f
  | report event next, f => report event (bind next f)

instance : Monad Session where
  pure := done
  bind := bind

@[simp] theorem pure_eq {α : Type} (value : α) : (pure value : Session α) = done value := rfl

@[simp] theorem bind_eq {α β : Type} (s : Session α) (f : α → Session β) : s >>= f = bind s f := rfl

@[simp] theorem done_bind {α β : Type} (value : α) (f : α → Session β) :
    bind (done value) f = f value := rfl

theorem bind_done {α : Type} (s : Session α) : bind s done = s := by
  induction s with
  | done value => rfl
  | read size next ih => simp only [bind, ih]
  | write data next ih => simp only [bind, ih]
  | flush next ih => simp only [bind, ih]
  | report event next ih => simp only [bind, ih]

theorem bind_assoc {α β γ : Type} (s : Session α) (f : α → Session β) (g : β → Session γ) :
    bind (bind s f) g = bind s fun value => bind (f value) g := by
  induction s with
  | done value => rfl
  | read size next ih => simp only [bind, ih]
  | write data next ih => simp only [bind, ih]
  | flush next ih => simp only [bind, ih]
  | report event next ih => simp only [bind, ih]

instance : LawfulMonad Session :=
  LawfulMonad.mk' Session
    (fun s => bind_done s)
    (fun _ _ => rfl)
    (fun s f g => bind_assoc s f g)

/-- A session that cannot be heard: what it writes is taken for accepted and flushed, and never reaches
the stream. -/
def muted {α : Type} : Session α → Session α
  | done value => done value
  | read size next => read size fun answer => muted (next answer)
  | write data next => muted (next (.ok data.length))
  | flush next => muted (next (.ok ()))
  | report event next => report event (muted next)

/-! ## Loops over single requests -/

/-- How many bytes a read asks for that takes whatever is there. -/
def chunkSize : Nat := 32768

/-- Reads `need` more bytes after the ones already collected. Every read that continues the loop
delivers something, so `need` reads are enough. -/
def readMore : (fuel need : Nat) → Bytes → Session (Except IoError Bytes)
  | _, 0, collected => done (.ok collected)
  | 0, _ + 1, _ => done (.error .earlyEof)
  | fuel + 1, need + 1, collected =>
    read (need + 1) fun answer =>
      match answer with
      | .error error => done (.error error)
      | .ok [] => done (.error .earlyEof)
      | .ok bytes => readMore fuel (need + 1 - bytes.length) (collected ++ bytes)

/-- Reads exactly so many bytes; the end of the stream before that is a failure. -/
def readExact (count : Nat) : Session (Except IoError Bytes) :=
  readMore count count []

/-- Reads one byte. -/
def readByte : Session (Except IoError UInt8) :=
  read 1 fun answer =>
    match answer with
    | .error error => done (.error error)
    | .ok [] => done (.error .unexpectedEof)
    | .ok (b :: _) => done (.ok b)

/-- Reads until a read delivers nothing, or fails. Answers what it got and the failure. -/
def readToEnd : (fuel : Nat) → Bytes → Session (Bytes × Option IoError)
  | 0, collected => done (collected, none)
  | fuel + 1, collected =>
    read chunkSize fun answer =>
      match answer with
      | .error error => done (collected, some error)
      | .ok [] => done (collected, none)
      | .ok bytes => readToEnd fuel (collected ++ bytes)

/-- Offers the bytes again and again until all are accepted. Every write that continues the loop
takes something, so as many writes as bytes are enough. -/
def writeMore : (fuel : Nat) → Bytes → Session (Except IoError Unit)
  | _, [] => done (.ok ())
  | 0, _ :: _ => done (.error .writeZero)
  | fuel + 1, data =>
    write data fun answer =>
      match answer with
      | .error error => done (.error error)
      | .ok 0 => done (.error .writeZero)
      | .ok accepted => writeMore fuel (data.drop accepted)

/-- Writes all the bytes; a write that accepts none is a failure. -/
def writeAll (data : Bytes) : Session (Except IoError Unit) :=
  writeMore data.length data

end Session

/-! ## Handshakes -/

/-- A session that may fail. -/
abbrev Handshake (α : Type) := ExceptT ProxyError Session α

namespace Handshake

/-- A handshake from a session whose failures are those of the stream. -/
def ofIo {α : Type} (session : Session (Except IoError α)) : Handshake α :=
  ExceptT.mk do
    match ← session with
    | .ok value => return .ok value
    | .error error => return .error (.io error)

/-- A handshake that fails or answers at once. -/
def ofExcept {α : Type} (result : Except ProxyError α) : Handshake α :=
  ExceptT.mk (Session.done result)

/-- One read. -/
def read (size : Nat) : Handshake Bytes :=
  ofIo (.read size .done)

/-- Exactly so many bytes, in as many reads as it takes. -/
def readExact (count : Nat) : Handshake Bytes :=
  ofIo (Session.readExact count)

/-- One byte. -/
def readByte : Handshake UInt8 :=
  ofIo Session.readByte

/-- One write; the answer is how many bytes were accepted. -/
def write (data : Bytes) : Handshake Nat :=
  ofIo (.write data .done)

/-- All the bytes, in as many writes as it takes. -/
def writeAll (data : Bytes) : Handshake Unit :=
  ofIo (Session.writeAll data)

/-- Flushes what was written. -/
def flush : Handshake Unit :=
  ofIo (.flush .done)

/-- Reports an event. -/
def report (event : LogEvent) : Handshake Unit :=
  ExceptT.mk (.report event (.done (.ok ())))

/-- Exactly so many bytes in a single read; a shorter answer is a malformed header. -/
def readOnce (count : Nat) : Handshake Bytes := do
  let bytes ← read count
  if bytes.length = count then return bytes
  else throw (.malformedHeader .shortRead)

/-- A complete frame in a single write, flushed. A write that accepts less is never repeated, so a
peer sees at most one prefix of the frame. -/
def writeFrame (frame : Bytes) : Handshake Unit := do
  let written ← write frame
  if written = frame.length then flush
  else throw (.shortWrite written frame.length)

/-- The session of a handshake. -/
def session {α : Type} (handshake : Handshake α) : Session (Except ProxyError α) :=
  handshake.run

end Handshake

end SniffProxy
