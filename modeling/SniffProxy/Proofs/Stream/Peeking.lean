import SniffProxy.Stream.Peek
import SniffProxy.Proofs.Stream.Content

/-!
# Runs of a peek

Whoever holds a peek may read, write, flush, stop the recording and ask for the replay, any number
of times and in any order. This module follows such a run over any stream.

* `Below` — the stream below a peek, as far as a peek can see it; `Script.below` is one.
* `Peek.step`, `Peek.run` — one operation and a run of operations, with what they showed.
* `Peek.Step` — the five things that an operation can do; `Peek.step_cases`.
-/

namespace SniffProxy

/-! ## The stream below -/

/-- A stream that answers requests, or leaves them waiting for now. Its content is what is still to
come; only reads move it. -/
structure Below (σ : Type) where
  read : (size : Nat) → σ → Option (Except IoError Bytes) × σ
  write : (data : Bytes) → σ → Option (Except IoError Nat) × σ
  flush : σ → Option (Except IoError Unit) × σ
  content : σ → Bytes
  read_delivers : ∀ {size : Nat} {s s' : σ} {answer : Except IoError Bytes},
    read size s = (some answer, s') → Delivers size (content s) answer (content s')
  read_waits : ∀ {size : Nat} {s s' : σ}, read size s = (none, s') → content s' = content s
  write_content : ∀ (data : Bytes) (s : σ), content (write data s).2 = content s
  flush_content : ∀ s : σ, content (flush s).2 = content s

/-- What became of a session on a stream. -/
structure Performed (α σ : Type) where
  /-- Nothing if a request is still waiting. -/
  value : Option α
  /-- The answers of the reads on the stream. -/
  live : List (Except IoError Bytes)
  stream : σ

/-- Performs a session on a stream; a request that is left waiting is given up. -/
def Session.perform {α σ : Type} (below : Below σ) : Session α → σ → Performed α σ
  | .done value, s => ⟨some value, [], s⟩
  | .read size next, s =>
    match below.read size s with
    | (none, s') => ⟨none, [], s'⟩
    | (some answer, s') =>
      let rest := perform below (next answer) s'
      { rest with live := answer :: rest.live }
  | .write data next, s =>
    match below.write data s with
    | (none, s') => ⟨none, [], s'⟩
    | (some answer, s') => perform below (next answer) s'
  | .flush next, s =>
    match below.flush s with
    | (none, s') => ⟨none, [], s'⟩
    | (some answer, s') => perform below (next answer) s'
  | .report _ next, s => perform below next s

/-- A scripted stream with its clock is a stream below a peek. -/
def Script.below : Below (Nat × Script) where
  read size s :=
    match s.2.read size s.1 with
    | .ready time answer events => (some answer, time, { s.2 with events := events })
    | .never => (none, s)
  write data s :=
    match s.2.write data with
    | .ready answer script => (some answer, s.1, script)
    | .never => (none, s)
  flush s := (some s.2.flush, s)
  content s := s.2.content
  read_delivers h := by
    split at h
    · rename_i hread
      cases h
      exact Script.read_delivers hread
    · cases h
  read_waits h := by
    split at h
    · cases h
    · cases h
      rfl
  write_content data s := by
    simp only [Script.write]
    split
    · rename_i hwrite
      split at hwrite
      · cases hwrite
        rfl
      · split at hwrite
        · cases hwrite
        · cases hwrite
          rfl
    · rfl
  flush_content _ := rfl

namespace Peek

/-! ## Single reads -/

/-- A peek that has nothing to replay serves nothing. -/
theorem serve_eq_none {peek : Peek} (h : peek.replaying = true → peek.buffer = []) (size : Nat) :
    peek.serve size = none := by
  unfold serve
  rw [if_neg]
  rintro ⟨hreplaying, hbuffer⟩
  exact hbuffer (h hreplaying)

@[simp] theorem record_recording (peek : Peek) (answer : Except IoError Bytes) :
    (peek.record answer).recording = peek.recording := by
  cases answer with
  | error error => rfl
  | ok bytes =>
    unfold record
    dsimp only
    split <;> rfl

@[simp] theorem record_replaying (peek : Peek) (answer : Except IoError Bytes) :
    (peek.record answer).replaying = peek.replaying := by
  cases answer with
  | error error => rfl
  | ok bytes =>
    unfold record
    dsimp only
    split <;> rfl

@[simp] theorem record_buffer (peek : Peek) (answer : Except IoError Bytes) :
    (peek.record answer).buffer =
      peek.buffer ++ if peek.recording then answerBytes answer else [] := by
  cases answer with
  | error error => simp [record, answerBytes]
  | ok bytes => cases h : peek.recording <;> simp [record, answerBytes, h]

/-! ## Operations -/

/-- What the holder of a peek may do. -/
inductive Op where
  | read (size : Nat)
  | write (data : Bytes)
  | flush
  | stop
  | replay
  deriving DecidableEq, Repr

/-- Whether an operation ends the recording. -/
def Op.endsRecording : Op → Bool
  | stop | replay => true
  | _ => false

/-- The session of an operation. Only reads hand bytes to the holder. -/
def Op.session : Op → Peek → Session (Except IoError Bytes × Peek)
  | read size, peek => peek.read size
  | write data, peek => Peek.through (.write data fun answer => .done (answer.map fun _ => [])) peek
  | flush, peek => Peek.through (.flush fun answer => .done (answer.map fun _ => [])) peek
  | stop, peek => .done (.ok [], peek.stop)
  | replay, peek => .done (.ok [], peek.replay)

/-- What an operation showed: its answer, if it has one yet, and the answers of the reads that it
made on the stream below. -/
structure Event where
  op : Op
  answer : Option (Except IoError Bytes)
  live : List (Except IoError Bytes)

namespace Event

/-- The bytes that the holder got. -/
def handed (event : Event) : Bytes :=
  event.answer.elim [] answerBytes

/-- The bytes that the stream below delivered. -/
def liveBytes (event : Event) : Bytes :=
  event.live.flatMap answerBytes

/-- The bytes that the holder got without a read on the stream below. -/
def servedBytes (event : Event) : Bytes :=
  if event.live.isEmpty then event.handed else []

end Event

/-- The bytes that the stream below delivered in a run. -/
def liveBytes (events : List Event) : Bytes :=
  events.flatMap Event.liveBytes

/-- The bytes that were served from the copy in a run. -/
def servedBytes (events : List Event) : Bytes :=
  events.flatMap Event.servedBytes

/-- The bytes that the holder got in a run. -/
def handedBytes (events : List Event) : Bytes :=
  events.flatMap Event.handed

/-- The events before the end of the recording. -/
def whileRecording (events : List Event) : List Event :=
  events.takeWhile fun event => !event.op.endsRecording

/-- The events from the end of the recording on. -/
def afterRecording (events : List Event) : List Event :=
  events.dropWhile fun event => !event.op.endsRecording

/-- A peek and the stream below it. -/
structure State (σ : Type) where
  peek : Peek
  stream : σ

variable {σ : Type}

/-- One operation. One that is left waiting changes nothing but the stream. -/
def step (below : Below σ) (op : Op) (state : State σ) : Event × State σ :=
  let performed := (op.session state.peek).perform below state.stream
  match performed.value with
  | some (answer, peek) => (⟨op, some answer, performed.live⟩, ⟨peek, performed.stream⟩)
  | none => (⟨op, none, performed.live⟩, ⟨state.peek, performed.stream⟩)

/-- A run of operations: what they showed, and the state after them. -/
def run (below : Below σ) : List Op → State σ → List Event × State σ
  | [], state => ([], state)
  | op :: ops, state =>
    let (event, next) := step below op state
    let (events, final) := run below ops next
    (event :: events, final)

theorem run_append (below : Below σ) (ops more : List Op) (state : State σ) :
    run below (ops ++ more) state =
      ((run below ops state).1 ++ (run below more (run below ops state).2).1,
        (run below more (run below ops state).2).2) := by
  induction ops generalizing state with
  | nil => rfl
  | cons op ops ih => simp only [List.cons_append, run, ih]

theorem step_op (below : Below σ) (op : Op) (state : State σ) :
    (step below op state).1.op = op := by
  unfold step
  dsimp only
  split <;> rfl

theorem run_ops (below : Below σ) (ops : List Op) (state : State σ) :
    (run below ops state).1.map Event.op = ops := by
  induction ops generalizing state with
  | nil => rfl
  | cons op ops ih => simp only [run, List.map_cons, step_op, ih]

/-! ## What an operation can do -/

/-- What an operation can do to a peek and the stream below it, and what it shows. -/
inductive Step (below : Below σ) : State σ → Event → State σ → Prop where
  /-- A read is served from the copy, and the stream is left alone. -/
  | served {peek : Peek} {s : σ} {size : Nat} (hreplaying : peek.replaying = true)
      (hbuffer : peek.buffer ≠ []) :
      Step below ⟨peek, s⟩ ⟨.read size, some (.ok (peek.buffer.take size)), []⟩
        ⟨{ peek with
            buffer := peek.buffer.drop size
            replaying := !(peek.buffer.drop size).isEmpty }, s⟩
  /-- A read goes to the stream, and its answer to the holder. -/
  | live {peek : Peek} {s s' : σ} {size : Nat} {answer : Except IoError Bytes}
      (hserve : peek.replaying = true → peek.buffer = [])
      (hread : Delivers size (below.content s) answer (below.content s')) :
      Step below ⟨peek, s⟩ ⟨.read size, some answer, [answer]⟩ ⟨peek.record answer, s'⟩
  /-- Something that concerns only the stream, or that is left waiting. -/
  | passed {peek : Peek} {s s' : σ} {event : Event} (hop : event.op.endsRecording = false)
      (hread : ∀ size, event.op = .read size → event.answer = none)
      (hlive : event.live = []) (hhanded : event.handed = [])
      (hcontent : below.content s' = below.content s) :
      Step below ⟨peek, s⟩ event ⟨peek, s'⟩
  | stopped {peek : Peek} {s : σ} : Step below ⟨peek, s⟩ ⟨.stop, some (.ok []), []⟩ ⟨peek.stop, s⟩
  | replayed {peek : Peek} {s : σ} :
      Step below ⟨peek, s⟩ ⟨.replay, some (.ok []), []⟩ ⟨peek.replay, s⟩

theorem step_read_served {below : Below σ} {peek : Peek} {s : σ} (size : Nat)
    (hreplaying : peek.replaying = true) (hbuffer : peek.buffer ≠ []) :
    step below (.read size) ⟨peek, s⟩ =
      (⟨.read size, some (.ok (peek.buffer.take size)), []⟩,
        ⟨{ peek with
            buffer := peek.buffer.drop size
            replaying := !(peek.buffer.drop size).isEmpty }, s⟩) := by
  simp [step, Op.session, Peek.read, Peek.serve, hreplaying, hbuffer, Session.perform]

theorem step_read_live {below : Below σ} {peek : Peek} {s : σ} (size : Nat)
    (h : peek.replaying = true → peek.buffer = []) :
    step below (.read size) ⟨peek, s⟩ =
      match below.read size s with
      | (some answer, s') => (⟨.read size, some answer, [answer]⟩, ⟨peek.record answer, s'⟩)
      | (none, s') => (⟨.read size, none, []⟩, ⟨peek, s'⟩) := by
  simp only [step, Op.session, Peek.read, serve_eq_none h, Session.perform]
  rcases below.read size s with ⟨_ | answer, s'⟩ <;> rfl

theorem answerBytes_map_nil {α : Type} (answer : Except IoError α) :
    answerBytes (answer.map fun _ => []) = [] := by
  cases answer <;> rfl

/-- Every operation does one of the five things. -/
theorem step_cases (below : Below σ) (op : Op) (state : State σ) :
    Step below state (step below op state).1 (step below op state).2 := by
  obtain ⟨peek, s⟩ := state
  cases op with
  | read size =>
    by_cases h : peek.replaying = true → peek.buffer = []
    · rw [step_read_live size h]
      rcases hread : below.read size s with ⟨_ | answer, s'⟩
      · exact .passed rfl (fun _ _ => rfl) rfl rfl (below.read_waits hread)
      · exact .live h (below.read_delivers hread)
    · rw [Classical.not_imp] at h
      rw [step_read_served size h.1 h.2]
      exact .served h.1 h.2
  | write data =>
    have hcontent := below.write_content data s
    simp only [step, Op.session, through, Session.perform]
    rcases hwrite : below.write data s with ⟨_ | answer, s'⟩ <;> rw [hwrite] at hcontent
    · exact .passed rfl (fun _ _ => rfl) rfl rfl hcontent
    · exact .passed rfl (fun _ hop => by cases hop) rfl (answerBytes_map_nil answer) hcontent
  | flush =>
    have hcontent := below.flush_content s
    simp only [step, Op.session, through, Session.perform]
    rcases hflush : below.flush s with ⟨_ | answer, s'⟩ <;> rw [hflush] at hcontent
    · exact .passed rfl (fun _ _ => rfl) rfl rfl hcontent
    · exact .passed rfl (fun _ hop => by cases hop) rfl (answerBytes_map_nil answer) hcontent
  | stop => exact .stopped
  | replay => exact .replayed

end Peek

end SniffProxy
