import SniffProxy.Proofs.Stream.Peeking

/-!
# The contract of a peek

Over every stream and after every run of operations, the copy is what was recorded less what was
served again. A replay that nothing came before gives the stream back from its first byte.

* `Peek.Inv` — the invariant of a run, with `Peek.Inv.step` and `Peek.Inv.run`.
* `Peek.Replaying` — what holds once a replay was asked for; `Peek.Replaying.run`.
* `Peek.contract` — everything that the holder of a peek can rely on.
-/

namespace SniffProxy

namespace Peek

variable {σ : Type}

/-! ## The invariant of a run -/

theorem liveBytes_snoc (events : List Event) (event : Event) :
    liveBytes (events ++ [event]) = liveBytes events ++ event.liveBytes := by
  simp [liveBytes]

theorem servedBytes_snoc (events : List Event) (event : Event) :
    servedBytes (events ++ [event]) = servedBytes events ++ event.servedBytes := by
  simp [servedBytes]

/-- Whether a run has not ended the recording. -/
def stillRecording (events : List Event) : Bool :=
  events.all fun event => !event.op.endsRecording

theorem stillRecording_snoc (events : List Event) (event : Event) :
    stillRecording (events ++ [event]) = (stillRecording events && !event.op.endsRecording) := by
  simp [stillRecording]

/-- Another event is recorded if the recording has not ended with it or before it. -/
theorem whileRecording_snoc (events : List Event) (event : Event) :
    whileRecording (events ++ [event]) =
      whileRecording events ++ if stillRecording (events ++ [event]) then [event] else [] := by
  induction events with
  | nil => cases h : event.op.endsRecording <;> simp [whileRecording, stillRecording, h]
  | cons first events ih =>
    simp only [whileRecording, stillRecording, List.cons_append, List.takeWhile_cons,
      List.all_cons] at ih ⊢
    by_cases hends : first.op.endsRecording = true
    · simp [hends]
    · simp [hends, ih]

theorem recordedBytes_snoc (events : List Event) (event : Event) :
    liveBytes (whileRecording (events ++ [event])) = liveBytes (whileRecording events) ++
      if stillRecording (events ++ [event]) then event.liveBytes else [] := by
  rw [whileRecording_snoc]
  split <;> simp [liveBytes]

/-- What holds of a peek after some events on a stream that began with `content`. -/
structure Inv (below : Below σ) (content : Bytes) (events : List Event) (state : State σ) :
    Prop where
  /-- What was recorded was served again or is still in the copy. -/
  recorded : liveBytes (whileRecording events) = servedBytes events ++ state.peek.buffer
  live : liveBytes events ++ below.content state.stream = content
  recording : state.peek.recording = stillRecording events
  /-- There is no replay before it is asked for. -/
  unasked : (∀ event ∈ events, event.op ≠ .replay) →
    state.peek.replaying = false ∧ servedBytes events = []
  /-- Once it is asked for it goes on as long as there is a copy. -/
  asked : (∃ event ∈ events, event.op = .replay) →
    state.peek.buffer ≠ [] → state.peek.replaying = true

theorem inv_start (below : Below σ) (s : σ) : Inv below (below.content s) [] ⟨.start, s⟩ where
  recorded := rfl
  live := rfl
  recording := rfl
  unasked _ := ⟨rfl, rfl⟩
  asked h := by obtain ⟨_, hmem, _⟩ := h; cases hmem

theorem stillRecording_of_ends {events : List Event}
    (h : ∃ event ∈ events, event.op.endsRecording = true) : stillRecording events = false := by
  obtain ⟨event, hmem, hends⟩ := h
  simp only [stillRecording, List.all_eq_false]
  exact ⟨event, hmem, by simp [hends]⟩

/-- A replay that was asked for ended the recording. -/
theorem stillRecording_of_replay {events : List Event} (h : ∃ event ∈ events, event.op = .replay) :
    stillRecording events = false := by
  obtain ⟨event, hmem, hop⟩ := h
  exact stillRecording_of_ends ⟨event, hmem, by rw [hop]; rfl⟩

/-- A peek that replays was asked to. -/
theorem Inv.asked_of_replaying {below : Below σ} {content : Bytes} {events : List Event}
    {state : State σ} (hinv : Inv below content events state)
    (h : state.peek.replaying = true) : ∃ event ∈ events, event.op = .replay := by
  refine Classical.byContradiction fun hnone => ?_
  have hquiet := (hinv.unasked fun event hmem hop => hnone ⟨event, hmem, hop⟩).1
  rw [hquiet] at h
  cases h

/-- An event without bytes keeps the invariant, if the flags follow its operation. -/
theorem Inv.quiet {below : Below σ} {content : Bytes} {events : List Event} {peek peek' : Peek}
    {s s' : σ} {event : Event} (hinv : Inv below content events ⟨peek, s⟩) (hlive : event.live = [])
    (hhanded : event.handed = []) (hbuffer : peek'.buffer = peek.buffer)
    (hcontent : below.content s' = below.content s)
    (hrecording : peek'.recording = (peek.recording && !event.op.endsRecording))
    (hreplaying : peek'.replaying = (peek.replaying || decide (event.op = .replay))) :
    Inv below content (events ++ [event]) ⟨peek', s'⟩ := by
  have hbytes : event.liveBytes = [] := by simp [Event.liveBytes, hlive]
  have hserved : event.servedBytes = [] := by simp [Event.servedBytes, hhanded]
  constructor
  case recorded =>
    rw [recordedBytes_snoc, servedBytes_snoc, hinv.recorded, hbytes, hserved, hbuffer]
    simp
  case live =>
    rw [liveBytes_snoc, hbytes, List.append_nil, hcontent]
    exact hinv.live
  case recording => rw [stillRecording_snoc, hrecording, hinv.recording]
  case unasked =>
    intro hnone
    have hop : event.op ≠ .replay := hnone event (List.mem_append_right _ List.mem_cons_self)
    rw [hreplaying, servedBytes_snoc, hserved, List.append_nil, decide_eq_false hop, Bool.or_false]
    exact hinv.unasked fun e hmem => hnone e (List.mem_append_left _ hmem)
  case asked =>
    rintro ⟨e, hmem, hop⟩ hrest
    rcases List.mem_append.mp hmem with hmem | hmem
    · have hasked : peek.replaying = true := hinv.asked ⟨e, hmem, hop⟩ (by rwa [← hbuffer])
      rw [hreplaying, hasked, Bool.true_or]
    · rw [List.mem_singleton.mp hmem] at hop
      rw [hreplaying, decide_eq_true hop, Bool.or_true]

theorem Inv.served {below : Below σ} {content : Bytes} {events : List Event} {peek : Peek} {s : σ}
    (hinv : Inv below content events ⟨peek, s⟩) (hreplaying : peek.replaying = true) (size : Nat) :
    Inv below content (events ++ [⟨.read size, some (.ok (peek.buffer.take size)), []⟩])
      ⟨{ peek with
          buffer := peek.buffer.drop size
          replaying := !(peek.buffer.drop size).isEmpty }, s⟩ := by
  have hasked := hinv.asked_of_replaying hreplaying
  have hstopped := stillRecording_of_replay hasked
  constructor
  case recorded =>
    rw [recordedBytes_snoc, servedBytes_snoc, hinv.recorded, stillRecording_snoc, hstopped]
    simp [Event.servedBytes, Event.handed, answerBytes]
  case live =>
    rw [liveBytes_snoc, ← hinv.live]
    simp [Event.liveBytes]
  case recording =>
    rw [stillRecording_snoc, ← hinv.recording]
    simp [Op.endsRecording]
  case unasked =>
    intro hnone
    obtain ⟨e, hmem, hreplay⟩ := hasked
    exact absurd hreplay (hnone e (List.mem_append_left _ hmem))
  case asked =>
    intro _ hrest
    simpa using hrest

theorem Inv.live_read {below : Below σ} {content : Bytes} {events : List Event} {peek : Peek}
    {s s' : σ} {size : Nat} {answer : Except IoError Bytes}
    (hinv : Inv below content events ⟨peek, s⟩)
    (hread : Delivers size (below.content s) answer (below.content s')) :
    Inv below content (events ++ [⟨.read size, some answer, [answer]⟩])
      ⟨peek.record answer, s'⟩ := by
  have hstill : stillRecording (events ++ [⟨.read size, some answer, [answer]⟩]) =
      peek.recording := by
    rw [stillRecording_snoc, hinv.recording]
    simp [Op.endsRecording]
  constructor
  case recorded =>
    rw [recordedBytes_snoc, servedBytes_snoc, hinv.recorded, hstill, record_buffer]
    simp [Event.servedBytes, Event.liveBytes]
  case live =>
    rw [liveBytes_snoc, ← hinv.live, List.append_assoc, hread.content_eq]
    simp [Event.liveBytes]
  case recording => rw [hstill, record_recording]
  case unasked =>
    intro hnone
    rw [record_replaying, servedBytes_snoc]
    simpa [Event.servedBytes] using
      hinv.unasked fun e hmem => hnone e (List.mem_append_left _ hmem)
  case asked =>
    rintro ⟨e, hmem, hreplay⟩ hbuffer
    rcases List.mem_append.mp hmem with hmem | hmem
    · -- the recording is over, so the copy is the one from before
      have hover : peek.recording = false :=
        hinv.recording.trans (stillRecording_of_replay ⟨e, hmem, hreplay⟩)
      rw [record_replaying]
      refine hinv.asked ⟨e, hmem, hreplay⟩ ?_
      simpa [hover] using hbuffer
    · rw [List.mem_singleton.mp hmem] at hreplay
      cases hreplay

/-- **Every operation keeps the invariant.** -/
theorem Inv.step {below : Below σ} {content : Bytes} {events : List Event} {state next : State σ}
    {event : Event} (hinv : Inv below content events state) (h : Step below state event next) :
    Inv below content (events ++ [event]) next := by
  cases h with
  | served hreplaying _ => exact hinv.served hreplaying _
  | live _ hread => exact hinv.live_read hread
  | passed hop _ hlive hhanded hcontent =>
    have hne : event.op ≠ .replay := by rintro h; rw [h] at hop; cases hop
    exact hinv.quiet hlive hhanded rfl hcontent (by simp [hop]) (by simp [hne])
  | stopped =>
    refine hinv.quiet rfl rfl rfl rfl ?_ ?_
    · simp [Peek.stop, Op.endsRecording]
    · simp [Peek.stop]
  | replayed =>
    refine hinv.quiet rfl rfl rfl rfl ?_ ?_
    · simp [Peek.replay, Op.endsRecording]
    · simp [Peek.replay]

/-- **Every run keeps the invariant.** -/
theorem Inv.run {below : Below σ} {content : Bytes} (ops : List Op) :
    ∀ {events : List Event} {state : State σ}, Inv below content events state →
      Inv below content (events ++ (run below ops state).1) (run below ops state).2 := by
  induction ops with
  | nil =>
    intro events state hinv
    simpa [Peek.run] using hinv
  | cons op ops ih =>
    intro events state hinv
    simpa [Peek.run] using ih (hinv.step (step_cases below op state))

/-! ## The replay -/

/-- What a reader still gets once the replay was asked for: the copy, then the stream. -/
def remaining (below : Below σ) (state : State σ) : Bytes :=
  state.peek.buffer ++ below.content state.stream

/-- The recording is over and the copy is served before the stream. -/
structure Replaying (state : State σ) : Prop where
  stopped : state.peek.recording = false
  serves : state.peek.buffer ≠ [] → state.peek.replaying = true

/-- A read that goes to the stream finds no copy. -/
theorem Replaying.buffer_eq_nil {state : State σ} (h : Replaying state)
    (hserve : state.peek.replaying = true → state.peek.buffer = []) : state.peek.buffer = [] :=
  Classical.byContradiction fun hbuffer => hbuffer (hserve (h.serves hbuffer))

/-- During a replay an operation hands over the next piece of what remains. -/
theorem Replaying.step {below : Below σ} {state next : State σ} {event : Event}
    (hreplaying : Replaying state) (h : Step below state event next) :
    Replaying next ∧ event.handed ++ remaining below next = remaining below state := by
  cases h with
  | passed _ _ _ hhanded hcontent =>
    refine ⟨⟨hreplaying.stopped, hreplaying.serves⟩, ?_⟩
    simp only [remaining, hhanded, hcontent, List.nil_append]
  | served _ _ =>
    refine ⟨⟨hreplaying.stopped, fun hrest => ?_⟩, ?_⟩
    · simpa using hrest
    · simp only [remaining, Event.handed, Option.elim_some, answerBytes]
      rw [← List.append_assoc, List.take_append_drop]
  | @live peek s s' size answer hserve hread =>
    have hbuffer : peek.buffer = [] := hreplaying.buffer_eq_nil hserve
    have hstopped : peek.recording = false := hreplaying.stopped
    have hrecord : (peek.record answer).buffer = [] := by simp [hbuffer, hstopped]
    refine ⟨⟨?_, fun hrest => absurd hrecord hrest⟩, ?_⟩
    · rw [record_recording]
      exact hstopped
    · simp only [remaining, hrecord, hbuffer, List.nil_append]
      exact hread.content_eq.symm
  | stopped => exact ⟨⟨rfl, hreplaying.serves⟩, rfl⟩
  | replayed => exact ⟨⟨rfl, fun _ => rfl⟩, rfl⟩

/-- **A replay loses nothing and repeats nothing**: what a run hands over, followed by what remains,
is what remained before. -/
theorem Replaying.run {below : Below σ} (ops : List Op) :
    ∀ {state : State σ}, Replaying state →
      Replaying (run below ops state).2 ∧
        handedBytes (run below ops state).1 ++ remaining below (run below ops state).2 =
          remaining below state := by
  induction ops with
  | nil =>
    intro state h
    exact ⟨h, rfl⟩
  | cons op ops ih =>
    intro state h
    obtain ⟨hnext, hhanded⟩ := h.step (step_cases below op state)
    obtain ⟨hfinal, hrest⟩ := ih hnext
    refine ⟨hfinal, ?_⟩
    simp only [Peek.run, handedBytes, List.flatMap_cons, List.append_assoc] at hrest ⊢
    rw [hrest, hhanded]

/-- A read that finds the end leaves nothing. -/
theorem Replaying.remaining_eq_nil {below : Below σ} {state next : State σ} {event : Event}
    {size : Nat} (hreplaying : Replaying state) (h : Step below state event next)
    (hop : event.op = .read size) (hsize : 0 < size) (hend : event.answer = some (.ok [])) :
    remaining below next = [] := by
  cases h with
  | passed _ hread _ _ _ =>
    rw [hread size hop] at hend
    cases hend
  | served _ hbuffer =>
    cases hop
    simp only [Option.some.injEq, Except.ok.injEq, List.take_eq_nil_iff] at hend
    rcases hend with hzero | hnil
    · omega
    · exact absurd hnil hbuffer
  | @live peek s s' _ answer hserve hread =>
    cases hop
    cases hend
    have hbuffer : peek.buffer = [] := hreplaying.buffer_eq_nil hserve
    simp only [remaining, record_buffer, hbuffer, answerBytes, ite_self, List.nil_append]
    exact hread.2.2 rfl hsize
  | stopped => cases hop
  | replayed => cases hop

/-! ## The contract -/

/-- What the holder of a peek can rely on after any operations on a stream that began as `s₀`. -/
structure Contract (below : Below σ) (s₀ : σ) (ops : List Op) (events : List Event)
    (state : State σ) : Prop where
  /-- The copy is what was recorded less what was served again. -/
  copy : state.peek.buffer =
    (liveBytes (whileRecording events)).drop (servedBytes events).length
  /-- Nothing recorded is served twice or out of order. -/
  served_once : servedBytes events <+: liveBytes (whileRecording events)
  /-- After a replay was asked for, the stream rests as long as there is a copy. -/
  stream_rests : .replay ∈ ops → state.peek.buffer ≠ [] → ∀ size : Nat,
    (step below (.read size) state).1.live = [] ∧
      (step below (.read size) state).2.stream = state.stream
  /-- The reads on the stream deliver it in order and without a gap. -/
  in_order : liveBytes events ++ below.content state.stream = below.content s₀
  /-- The answer of a read on the stream is the answer that the holder gets. -/
  passed_on : ∀ event ∈ events, event.live = [] ∨
    ∃ size answer, event.op = .read size ∧ event.live = [answer] ∧ event.answer = some answer
  /-- A failing or waiting operation and a write leave the copy and the flags alone. -/
  unchanged : ∀ op : Op,
    ((∀ bytes, (step below op state).1.answer ≠ some (.ok bytes)) ∨ ∃ data, op = .write data) →
      (step below op state).2.peek = state.peek
  /-- The recording never begins again. -/
  stays_stopped : .stop ∈ ops ∨ .replay ∈ ops → state.peek.recording = false
  /-- If the stream delivered nothing between the end of the recording and the first replay, then
  what is read after that and what remains are the stream from its first byte. -/
  from_first_byte : ∀ before after : List Op, ops = before ++ .replay :: after → .replay ∉ before →
    liveBytes (afterRecording (events.take before.length)) = [] →
      handedBytes (events.drop (before.length + 1)) ++ remaining below state = below.content s₀
  /-- Nothing remains behind a read that found the end. -/
  to_the_end : ∀ (before : List Op) (size : Nat), ops = before ++ [.read size] → .replay ∈ before →
    0 < size → events.getLast?.bind Event.answer = some (.ok []) → remaining below state = []

theorem mem_iff_event {below : Below σ} {ops : List Op} {state : State σ} {op : Op} :
    op ∈ ops ↔ ∃ event ∈ (run below ops state).1, event.op = op := by
  have hops := run_ops below ops state
  constructor
  · intro hmem
    rw [← hops] at hmem
    exact List.mem_map.mp hmem
  · rintro ⟨event, hmem, rfl⟩
    rw [← hops]
    exact List.mem_map_of_mem hmem

theorem run_inv (below : Below σ) (s : σ) (ops : List Op) :
    Inv below (below.content s) (run below ops ⟨.start, s⟩).1 (run below ops ⟨.start, s⟩).2 :=
  (inv_start below s).run ops

/-- A run that asked for the replay is in it. -/
theorem Inv.replaying {below : Below σ} {content : Bytes} {events : List Event} {state : State σ}
    (hinv : Inv below content events state) (h : ∃ event ∈ events, event.op = .replay) :
    Replaying state where
  stopped := hinv.recording.trans (stillRecording_of_replay h)
  serves := hinv.asked h

theorem Step.passed_on {below : Below σ} {state next : State σ} {event : Event}
    (h : Step below state event next) : event.live = [] ∨
      ∃ size answer, event.op = .read size ∧ event.live = [answer] ∧
        event.answer = some answer := by
  cases h with
  | served => exact .inl rfl
  | live => exact .inr ⟨_, _, rfl, rfl, rfl⟩
  | passed _ _ hlive _ _ => exact .inl hlive
  | stopped => exact .inl rfl
  | replayed => exact .inl rfl

theorem Step.peek_eq {below : Below σ} {state next : State σ} {event : Event}
    (h : Step below state event next)
    (hfail : (∀ bytes, event.answer ≠ some (.ok bytes)) ∨ ∃ data, event.op = .write data) :
    next.peek = state.peek := by
  cases h with
  | passed => rfl
  | @live peek s s' size answer _ _ =>
    rcases hfail with hfail | ⟨data, hop⟩
    · cases answer with
      | error error => rfl
      | ok bytes => exact absurd rfl (hfail bytes)
    · cases hop
  | served | stopped | replayed =>
    rcases hfail with hfail | ⟨data, hop⟩
    · exact absurd rfl (hfail _)
    · cases hop

theorem run_passed_on (below : Below σ) (ops : List Op) (state : State σ) :
    ∀ event ∈ (run below ops state).1, event.live = [] ∨
      ∃ size answer, event.op = .read size ∧ event.live = [answer] ∧
        event.answer = some answer := by
  induction ops generalizing state with
  | nil => intro event hmem; cases hmem
  | cons op ops ih =>
    intro event hmem
    rcases List.mem_cons.mp hmem with rfl | hmem
    · exact (step_cases below op state).passed_on
    · exact ih _ event hmem

theorem whileRecording_append_afterRecording (events : List Event) :
    liveBytes (whileRecording events) ++ liveBytes (afterRecording events) = liveBytes events := by
  rw [liveBytes, liveBytes, ← List.flatMap_append, whileRecording, afterRecording,
    List.takeWhile_append_dropWhile, liveBytes]

/-- If everything was recorded when the replay is first asked for, the whole stream remains. -/
theorem Inv.remaining_replay {below : Below σ} {content : Bytes} {events : List Event} {peek : Peek}
    {s : σ} (hinv : Inv below content events ⟨peek, s⟩)
    (hnone : ∀ event ∈ events, event.op ≠ .replay)
    (hall : liveBytes (afterRecording events) = []) :
    remaining below ⟨peek.replay, s⟩ = content := by
  have hserved := (hinv.unasked hnone).2
  have hrecorded : liveBytes events = peek.buffer := by
    rw [← whileRecording_append_afterRecording, hall, hinv.recorded, hserved]
    simp
  rw [← hinv.live, hrecorded]
  rfl

/-- **A peek keeps its contract**, over every stream and after every run of operations. -/
theorem contract (below : Below σ) (s₀ : σ) (ops : List Op) :
    Contract below s₀ ops (run below ops ⟨.start, s₀⟩).1 (run below ops ⟨.start, s₀⟩).2 := by
  have hinv := run_inv below s₀ ops
  constructor
  case copy => rw [hinv.recorded, List.drop_left]
  case served_once => exact ⟨_, hinv.recorded.symm⟩
  case stream_rests =>
    intro hreplay hbuffer size
    have hserves := (hinv.replaying (mem_iff_event.mp hreplay)).serves hbuffer
    rw [step_read_served size hserves hbuffer]
    exact ⟨rfl, rfl⟩
  case in_order => exact hinv.live
  case passed_on => exact run_passed_on below ops _
  case unchanged =>
    intro op hfail
    refine (step_cases below op _).peek_eq (hfail.imp_right ?_)
    rintro ⟨data, rfl⟩
    exact ⟨data, step_op below _ _⟩
  case stays_stopped =>
    intro hended
    obtain ⟨op, hmem, hends⟩ : ∃ op ∈ ops, op.endsRecording = true := by
      rcases hended with hmem | hmem
      · exact ⟨.stop, hmem, rfl⟩
      · exact ⟨.replay, hmem, rfl⟩
    obtain ⟨event, hevent, rfl⟩ := mem_iff_event.mp hmem
    rw [hinv.recording]
    exact stillRecording_of_ends ⟨event, hevent, hends⟩
  case from_first_byte =>
    rintro before after rfl hnone hall
    have hbefore := run_inv below s₀ before
    have hops := run_ops below before ⟨.start, s₀⟩
    rw [run_append] at hall ⊢
    generalize run below before ⟨.start, s₀⟩ = first at hbefore hops hall ⊢
    obtain ⟨events, peek, s⟩ := first
    have hlength : before.length = events.length := by rw [← hops, List.length_map]
    simp only [hlength, List.take_left] at hall
    have hreplaying : Replaying (⟨peek.replay, s⟩ : State σ) := ⟨rfl, fun _ => rfl⟩
    rw [← hbefore.remaining_replay ?_ hall, ← (hreplaying.run after).2]
    · simp only [hlength, ← List.drop_drop, List.drop_left]
      rfl
    · intro event hmem hop
      exact hnone (by rw [← hops]; exact List.mem_map.mpr ⟨event, hmem, hop⟩)
  case to_the_end =>
    rintro before size rfl hreplay hsize hend
    rw [run_append] at hend ⊢
    have hreplaying := (run_inv below s₀ before).replaying (mem_iff_event.mp hreplay)
    have hstep := step_cases below (.read size) (run below before ⟨.start, s₀⟩).2
    simp only [run, List.getLast?_append, List.getLast?_singleton, Option.some_or,
      Option.bind_some] at hend
    exact hreplaying.remaining_eq_nil hstep (step_op below _ _) hsize hend

end Peek

end SniffProxy
