import SniffProxy.Proofs.Stream.Peeking

/-!
# Runs of sessions

What a run of a session on a scripted stream leaves of the stream, for sessions of a known shape.

* `Session.run_bind` — a run of two sessions one after the other is a run of each.
* `Session.run_invariant` — what every request keeps of the stream a whole run keeps.
* `Session.Records` — sessions that only read, through a peek that records; every muted session is
  one (`Session.records_through`).
* `Session.Records.run` — such a session loses nothing: what it read is in the peek.
-/

namespace SniffProxy

/-- The stream as a run left it, whether it ended or is left waiting. -/
def Outcome.script {α : Type} : Outcome α → Script
  | finished _ _ script _ => script
  | waiting script _ => script

@[simp] theorem Outcome.script_logged {α : Type} (event : LogEvent) (outcome : Outcome α) :
    (outcome.logged event).script = outcome.script := by
  cases outcome <;> rfl

namespace Session

variable {α β : Type} {deadline : Option Nat}

/-! ## Sequencing -/

theorem logged_eq_finished {event : LogEvent} {outcome : Outcome α} {value : α} {time : Nat}
    {rest : Script} {log : List LogEvent}
    (h : outcome.logged event = .finished value time rest log) :
    ∃ tail, outcome = .finished value time rest tail ∧ log = event :: tail := by
  cases outcome with
  | finished => cases h; exact ⟨_, rfl, rfl⟩
  | waiting => cases h

/-- **A finished run of a sequence** is a finished run of its first part and one of what follows. -/
theorem run_bind {f : α → Session β} :
    ∀ {s : Session α} {now : Nat} {script : Script} {value : β} {time : Nat} {rest : Script}
      {log : List LogEvent}, (s.bind f).run deadline now script = .finished value time rest log →
      ∃ first firstTime firstRest firstLog secondLog,
        s.run deadline now script = .finished first firstTime firstRest firstLog ∧
          (f first).run deadline firstTime firstRest = .finished value time rest secondLog ∧
          log = firstLog ++ secondLog := by
  intro s
  induction s with
  | done first =>
    intro now script value time rest log h
    exact ⟨first, now, script, [], log, rfl, h, rfl⟩
  | read size next ih =>
    intro now script value time rest log h
    simp only [bind, run] at h ⊢
    split at h
    · cases h
    · rename_i readTime answer events hread
      split at h
      · cases h
      · rename_i hlate
        rw [if_neg hlate]
        exact ih answer h
  | write data next ih =>
    intro now script value time rest log h
    simp only [bind, run] at h ⊢
    split at h
    · cases h
    · exact ih _ h
  | flush next ih =>
    intro now script value time rest log h
    exact ih _ h
  | report event next ih =>
    intro now script value time rest log h
    simp only [bind, run] at h ⊢
    obtain ⟨tail, hrun, rfl⟩ := logged_eq_finished h
    obtain ⟨first, firstTime, firstRest, firstLog, secondLog, hfirst, hsecond, rfl⟩ := ih hrun
    rw [hfirst]
    exact ⟨first, firstTime, firstRest, event :: firstLog, secondLog, rfl, hsecond, rfl⟩

/-- A run of a sequence whose first part finished goes on with what follows, behind its log. -/
theorem run_bind_of_finished {f : α → Session β} :
    ∀ {s : Session α} {now : Nat} {script : Script} {first : α} {time : Nat} {rest : Script}
      {log : List LogEvent}, s.run deadline now script = .finished first time rest log →
      (s.bind f).run deadline now script =
        log.foldr Outcome.logged ((f first).run deadline time rest) := by
  intro s
  induction s with
  | done value =>
    intro now script first time rest log h
    cases h
    rfl
  | read size next ih =>
    intro now script first time rest log h
    simp only [bind, run] at h ⊢
    split at h
    · cases h
    · split at h
      · cases h
      · rename_i hlate
        rw [if_neg hlate]
        exact ih _ h
  | write data next ih =>
    intro now script first time rest log h
    simp only [bind, run] at h ⊢
    split at h
    · cases h
    · exact ih _ h
  | flush next ih =>
    intro now script first time rest log h
    exact ih _ h
  | report event next ih =>
    intro now script first time rest log h
    obtain ⟨tail, hrun, rfl⟩ := logged_eq_finished h
    simp only [bind, run, List.foldr_cons]
    rw [ih hrun]

theorem logged_eq_waiting {event : LogEvent} {outcome : Outcome α} {rest : Script}
    {log : List LogEvent} (h : outcome.logged event = .waiting rest log) :
    ∃ tail, outcome = .waiting rest tail ∧ log = event :: tail := by
  cases outcome with
  | finished => cases h
  | waiting => cases h; exact ⟨_, rfl, rfl⟩

/-- A run of a sequence whose first part is left waiting is left waiting. -/
theorem run_bind_of_waiting {f : α → Session β} :
    ∀ {s : Session α} {now : Nat} {script rest : Script} {log : List LogEvent},
      s.run deadline now script = .waiting rest log →
      (s.bind f).run deadline now script = .waiting rest log := by
  intro s
  induction s with
  | done value =>
    intro now script rest log h
    cases h
  | read size next ih =>
    intro now script rest log h
    simp only [bind, run] at h ⊢
    split at h
    · cases h
      rfl
    · split at h
      · rename_i hlate
        cases h
        rw [if_pos hlate]
      · rename_i hlate
        rw [if_neg hlate]
        exact ih _ h
  | write data next ih =>
    intro now script rest log h
    simp only [bind, run] at h ⊢
    split at h
    · cases h
      rfl
    · exact ih _ h
  | flush next ih =>
    intro now script rest log h
    exact ih _ h
  | report event next ih =>
    intro now script rest log h
    obtain ⟨tail, hrun, rfl⟩ := logged_eq_waiting h
    simp only [bind, run]
    rw [ih hrun]
    rfl

/-- A run of a sequence whose first part finished and reported nothing. -/
theorem run_bind_of_quiet {f : α → Session β} {s : Session α} {now : Nat} {script : Script}
    {first : α} {time : Nat} {rest : Script}
    (h : s.run deadline now script = .finished first time rest []) :
    (s.bind f).run deadline now script = (f first).run deadline time rest :=
  run_bind_of_finished h

theorem foldr_logged_finished (log : List LogEvent) (value : α) (time : Nat) (script : Script)
    (more : List LogEvent) :
    log.foldr Outcome.logged (.finished value time script more) =
      .finished value time script (log ++ more) := by
  induction log with
  | nil => rfl
  | cons event log ih => rw [List.foldr_cons, ih]; rfl

theorem script_foldr_logged (log : List LogEvent) (outcome : Outcome α) :
    (log.foldr Outcome.logged outcome).script = outcome.script := by
  induction log with
  | nil => rfl
  | cons event log ih => rw [List.foldr_cons, Outcome.script_logged, ih]

theorem foldr_logged_waiting {log : List LogEvent} {outcome : Outcome α} {rest : Script}
    {all : List LogEvent} (h : log.foldr Outcome.logged outcome = .waiting rest all) :
    ∃ tail, outcome = .waiting rest tail := by
  induction log generalizing all with
  | nil => exact ⟨all, h⟩
  | cons event log ih =>
    obtain ⟨tail, htail, -⟩ := logged_eq_waiting h
    exact ih htail

theorem foldr_logged_of_waiting (log : List LogEvent) {outcome : Outcome α} {rest : Script}
    {tail : List LogEvent} (h : outcome = .waiting rest tail) :
    log.foldr Outcome.logged outcome = .waiting rest (log ++ tail) := by
  induction log with
  | nil => exact h
  | cons event log ih => rw [List.foldr_cons, ih]; rfl

/-! ## Invariants of the stream -/

/-- **What every request keeps a whole run keeps**, wherever it stops. -/
theorem run_invariant {inv : Script → Prop}
    (hread : ∀ (script : Script) (size now time : Nat) (answer : Except IoError Bytes)
      (events : List ReadEvent), inv script → script.read size now = .ready time answer events →
      inv { script with events })
    (hwrite : ∀ (script after : Script) (data : Bytes) (answer : Except IoError Nat), inv script →
      script.write data = .ready answer after → inv after) :
    ∀ (s : Session α) (now : Nat) {script : Script}, inv script →
      inv (s.run deadline now script).script := by
  intro s
  induction s with
  | done value =>
    intro now script h
    exact h
  | read size next ih =>
    intro now script h
    simp only [run]
    split
    · exact h
    · rename_i time answer events heq
      split
      · exact h
      · exact ih answer time (hread _ _ _ _ _ _ h heq)
  | write data next ih =>
    intro now script h
    simp only [run]
    split
    · exact h
    · rename_i answer after heq
      exact ih answer now (hwrite _ _ _ _ h heq)
  | flush next ih =>
    intro now script h
    exact ih _ now h
  | report event next ih =>
    intro now script h
    simp only [run, Outcome.script_logged]
    exact ih now h

/-! ## Recording -/

/-- A session that only reads and reports, records every answer in its peek, and answers that
peek. -/
inductive Records : Peek → Session (α × Peek) → Prop where
  | done {peek : Peek} {value : α} : Records peek (.done (value, peek))
  | report {peek : Peek} {event : LogEvent} {next : Session (α × Peek)} (hnext : Records peek next) :
      Records peek (.report event next)
  | read {peek : Peek} {size : Nat} {next : Except IoError Bytes → Session (α × Peek)}
      (hnext : ∀ answer, Records (peek.record answer) (next answer)) :
      Records peek (.read size next)

/-- Reading through a peek that replays nothing, and going on with what it recorded. -/
theorem Records.read_bind {peek : Peek} {size : Nat}
    {next : Except IoError Bytes × Peek → Session (α × Peek)} (hreplaying : peek.replaying = false)
    (hnext : ∀ answer, Records (peek.record answer) (next (answer, peek.record answer))) :
    Records peek ((peek.read size).bind next) := by
  have hserve : peek.serve size = none :=
    Peek.serve_eq_none (fun h => by rw [hreplaying] at h; cases h) size
  rw [Peek.read, hserve]
  exact .read hnext

/-- A muted session that reads through a peek which replays nothing records all that it reads. -/
theorem records_through {s : Session α} :
    ∀ {peek : Peek}, peek.replaying = false → Records peek (Peek.through s.muted peek) := by
  induction s with
  | done value =>
    intro peek _
    exact .done
  | read size next ih =>
    intro peek hreplaying
    have hserve : peek.serve size = none :=
      Peek.serve_eq_none (fun h => by rw [hreplaying] at h; cases h) size
    simp only [muted, Peek.through, hserve]
    exact .read fun answer => ih answer (by rw [Peek.record_replaying]; exact hreplaying)
  | write data next ih => exact ih (.ok data.length)
  | flush next ih => exact ih (.ok ())
  | report event next ih =>
    intro peek hreplaying
    exact .report (ih hreplaying)

/-- An answer that is only put into other words changes nothing. -/
theorem Records.bind_done {s : Session (α × Peek)} {peek : Peek} (h : Records peek s)
    (f : α → β) : Records peek (s.bind fun answer => .done (f answer.1, answer.2)) := by
  induction h with
  | done => exact .done
  | report _ ih => exact .report ih
  | read _ ih => exact .read ih

/-- **Recording loses nothing**: after any run the copy and what is still to come are the copy and
the stream from before. -/
theorem Records.run {peek : Peek} {s : Session (α × Peek)} (h : Records peek s) :
    ∀ {now : Nat} {script : Script} {value : α} {last : Peek} {time : Nat} {rest : Script}
      {log : List LogEvent}, peek.recording = true →
      s.run deadline now script = .finished (value, last) time rest log →
      last.buffer ++ rest.content = peek.buffer ++ script.content := by
  induction h with
  | done =>
    intro now script value last time rest log _ hrun
    cases hrun
    rfl
  | report _ ih =>
    intro now script value last time rest log hrecording hrun
    obtain ⟨tail, hrest, -⟩ := logged_eq_finished hrun
    exact ih hrecording hrest
  | @read peek size next _ ih =>
    intro now script value last time rest log hrecording hrun
    simp only [Session.run] at hrun
    split at hrun
    · cases hrun
    · rename_i readTime answer events hread
      split at hrun
      · cases hrun
      · have hrest := ih answer (by rw [Peek.record_recording]; exact hrecording) hrun
        rw [hrest, Peek.record_buffer, if_pos hrecording, (Script.read_delivers hread).content_eq,
          List.append_assoc]
        rfl

end Session

end SniffProxy
