import SniffProxy.Proofs.Stream.Ensuring

/-!
# Exchanges

A session and a stream talk in calls and answers, and nothing else of the stream can be seen from
the session's side. So whatever holds of the calls that a session makes, for all answers, holds on
every stream: on one that delivers bytes for ever, cuts them as it likes, fails at any point, takes
as much of a write as it likes, and lets all of this depend on what was said before.

* `Call` — a call and its answer; `Call.taken`, `Call.given` — the bytes that it moved.
* `Answerer` — any stream that answers every call.
* `Session.exchange` — all calls of a session on such a stream, and its value.
* `Session.Makes` — the calls that a session makes if it is answered so; `Session.run_makes` — a
  finished run on a scripted stream makes such calls.
* `Peek.through_makes` — whoever reads through a replaying peek gets the copy and then the stream.
-/

namespace SniffProxy

/-! ## Calls and answers -/

/-- A call of a session with the answer that it got. -/
inductive Call where
  | read (size : Nat) (answer : Except IoError Bytes)
  | write (data : Bytes) (answer : Except IoError Nat)
  | flush (answer : Except IoError Unit)

namespace Call

/-- The bytes that a call took off the stream. -/
def taken : Call → Bytes
  | read _ answer => answerBytes answer
  | write _ _ => []
  | flush _ => []

/-- The bytes that a call had accepted. -/
def given : Call → Bytes
  | read _ _ => []
  | write data (.ok count) => data.take count
  | write _ (.error _) => []
  | flush _ => []

/-- The answer is one that a stream may give: no more bytes than were asked for or offered. -/
def Fits : Call → Prop
  | read size answer => (answerBytes answer).length ≤ size
  | write data (.ok count) => count ≤ data.length
  | write _ (.error _) => True
  | flush _ => True

end Call

/-- Any stream that answers every call: its answers, by all the calls before. -/
structure Answerer where
  read : (past : List Call) → (size : Nat) → Except IoError Bytes
  write : (past : List Call) → (data : Bytes) → Except IoError Nat
  flush : (past : List Call) → Except IoError Unit
  read_fits : ∀ past size, (Call.read size (read past size)).Fits
  write_fits : ∀ past data, (Call.write data (write past data)).Fits

/-- The calls of a session, in order, and its value. -/
structure Exchange (α : Type) where
  calls : List Call
  value : α

/-- The exchange with a call in front. -/
def Exchange.behind {α : Type} (call : Call) (exchange : Exchange α) : Exchange α :=
  { exchange with calls := call :: exchange.calls }

namespace Session

variable {α β : Type}

/-- A session on a stream that has answered some calls already. -/
def exchange (answerer : Answerer) : Session α → (past : List Call) → Exchange α
  | .done value, _ => ⟨[], value⟩
  | .read size next, past =>
    let call := Call.read size (answerer.read past size)
    (exchange answerer (next (answerer.read past size)) (past ++ [call])).behind call
  | .write data next, past =>
    let call := Call.write data (answerer.write past data)
    (exchange answerer (next (answerer.write past data)) (past ++ [call])).behind call
  | .flush next, past =>
    let call := Call.flush (answerer.flush past)
    (exchange answerer (next (answerer.flush past)) (past ++ [call])).behind call
  | .report _ next, past => exchange answerer next past

/-- If its calls are answered so, these are the calls that the session makes, and then it ends with
this value. -/
inductive Makes : Session α → List Call → α → Prop where
  | done {value : α} : Makes (.done value) [] value
  | read {size : Nat} {next : Except IoError Bytes → Session α} {answer : Except IoError Bytes}
      {calls : List Call} {value : α} (hnext : Makes (next answer) calls value) :
      Makes (.read size next) (.read size answer :: calls) value
  | write {data : Bytes} {next : Except IoError Nat → Session α} {answer : Except IoError Nat}
      {calls : List Call} {value : α} (hnext : Makes (next answer) calls value) :
      Makes (.write data next) (.write data answer :: calls) value
  | flush {next : Except IoError Unit → Session α} {answer : Except IoError Unit}
      {calls : List Call} {value : α} (hnext : Makes (next answer) calls value) :
      Makes (.flush next) (.flush answer :: calls) value
  | report {event : LogEvent} {next : Session α} {calls : List Call} {value : α}
      (hnext : Makes next calls value) : Makes (.report event next) calls value

/-! ## Where calls come from -/

/-- What is exchanged with a stream are calls that the session makes. -/
theorem exchange_makes (answerer : Answerer) :
    ∀ (s : Session α) (past : List Call),
      s.Makes (s.exchange answerer past).calls (s.exchange answerer past).value := by
  intro s
  induction s with
  | done value =>
    intro past
    exact .done
  | read size next ih =>
    intro past
    exact .read (ih _ _)
  | write data next ih =>
    intro past
    exact .write (ih _ _)
  | flush next ih =>
    intro past
    exact .flush (ih _ _)
  | report event next ih =>
    intro past
    exact .report (ih past)

/-- What holds of every answer of a stream holds of all that is exchanged with it. -/
theorem exchange_forall {answerer : Answerer} {p : Call → Prop}
    (hread : ∀ past size, p (.read size (answerer.read past size)))
    (hwrite : ∀ past data, p (.write data (answerer.write past data)))
    (hflush : ∀ past, p (.flush (answerer.flush past))) :
    ∀ (s : Session α) (past : List Call), ∀ call ∈ (s.exchange answerer past).calls, p call := by
  intro s
  induction s with
  | done value =>
    intro past
    exact nofun
  | read size next ih =>
    intro past
    exact List.forall_mem_cons.mpr ⟨hread past size, ih _ _⟩
  | write data next ih =>
    intro past
    exact List.forall_mem_cons.mpr ⟨hwrite past data, ih _ _⟩
  | flush next ih =>
    intro past
    exact List.forall_mem_cons.mpr ⟨hflush past, ih _ _⟩
  | report event next ih =>
    intro past
    exact ih past

theorem exchange_fits (answerer : Answerer) (s : Session α) (past : List Call) :
    ∀ call ∈ (s.exchange answerer past).calls, call.Fits :=
  exchange_forall answerer.read_fits answerer.write_fits (fun _ => trivial) s past

/-- **Finished runs make calls**: on a scripted stream, what the calls took was at the front of the
content, and what they had accepted is behind all that was. -/
theorem run_makes {deadline : Option Nat} :
    ∀ {s : Session α} {now : Nat} {script : Script} {value : α} {time : Nat} {rest : Script}
      {log : List LogEvent}, s.run deadline now script = .finished value time rest log →
      ∃ calls, s.Makes calls value ∧ (∀ call ∈ calls, call.Fits) ∧
        script.content = calls.flatMap Call.taken ++ rest.content ∧
        rest.received = script.received ++ calls.flatMap Call.given := by
  intro s
  induction s with
  | done value =>
    intro now script value time rest log h
    cases h
    exact ⟨[], .done, nofun, rfl, (List.append_nil _).symm⟩
  | read size next ih =>
    intro now script value time rest log h
    obtain ⟨answer, readTime, after, hdelivers, hreceived, hnext⟩ := run_read h
    obtain ⟨calls, hmakes, hfits, htaken, hgiven⟩ := ih answer hnext
    have hfit : (Call.read size answer).Fits := by
      cases answer with
      | ok bytes => exact hdelivers.2.1
      | error error => exact Nat.zero_le size
    refine ⟨_, .read hmakes, List.forall_mem_cons.mpr ⟨hfit, hfits⟩, ?_, ?_⟩
    · rw [hdelivers.content_eq, htaken, List.flatMap_cons, List.append_assoc]
      rfl
    · rw [hgiven, hreceived]
      rfl
  | write data next ih =>
    intro now script value time rest log h
    obtain ⟨answer, after, given, haccepts, hcontent, hreceived, hnext⟩ := run_write h
    obtain ⟨calls, hmakes, hfits, htaken, hgiven⟩ := ih answer hnext
    have hfit : (Call.write data answer).Fits ∧ given = (Call.write data answer).given := by
      cases answer with
      | ok count => exact haccepts
      | error error => exact ⟨trivial, haccepts⟩
    refine ⟨_, .write hmakes, List.forall_mem_cons.mpr ⟨hfit.1, hfits⟩, ?_, ?_⟩
    · rw [← hcontent, htaken]
      rfl
    · rw [hgiven, hreceived, hfit.2, List.flatMap_cons, List.append_assoc]
  | flush next ih =>
    intro now script value time rest log h
    obtain ⟨calls, hmakes, hfits, htaken, hgiven⟩ := ih script.flush h
    exact ⟨_, .flush hmakes, List.forall_mem_cons.mpr ⟨trivial, hfits⟩, htaken, hgiven⟩
  | report event next ih =>
    intro now script value time rest log h
    obtain ⟨tail, hrun, _⟩ := logged_eq_finished h
    obtain ⟨calls, hmakes, hrest⟩ := ih hrun
    exact ⟨calls, .report hmakes, hrest⟩

end Session

/-! ## Reading through a peek -/

/-- **A replay restores the stream**: someone who uses a stream through a replaying peek makes calls
of his own. What they took, followed by what is left of the copy, is the copy followed by what was
read from the stream; and what they gave went to the stream. -/
theorem Peek.through_makes {α : Type} :
    ∀ {user : Session α} {peek last : Peek} {live : List Call} {value : α},
      peek.recording = false → (peek.buffer ≠ [] → peek.replaying = true) →
      (through user peek).Makes live (value, last) →
      ∃ seen, user.Makes seen value ∧
        seen.flatMap Call.taken ++ last.buffer = peek.buffer ++ live.flatMap Call.taken ∧
        seen.flatMap Call.given = live.flatMap Call.given := by
  intro user
  induction user with
  | done value =>
    intro peek last live value _ _ h
    cases h
    exact ⟨[], .done, (List.append_nil _).symm, rfl⟩
  | read size next ih =>
    intro peek last live value hstopped hserves h
    -- with an empty copy the read goes to the stream, otherwise the copy answers it and shrinks
    by_cases hbuffer : peek.buffer = []
    · have hserve : peek.serve size = none := serve_eq_none (fun _ => hbuffer) size
      simp only [through, hserve] at h
      cases h with
      | @read _ _ answer live _ h =>
        have hrecord : (peek.record answer).buffer = [] := by
          rw [record_buffer, hbuffer, hstopped]
          rfl
        obtain ⟨seen, hmakes, htaken, hgiven⟩ := ih answer
          ((record_recording peek answer).trans hstopped) (fun h => absurd hrecord h) h
        refine ⟨_, .read hmakes, ?_, ?_⟩
        · rw [hrecord] at htaken
          rw [hbuffer, List.flatMap_cons, List.flatMap_cons, List.append_assoc, htaken]
          rfl
        · rw [List.flatMap_cons, List.flatMap_cons, hgiven]
    · let served : Peek :=
        { peek with
          buffer := peek.buffer.drop size
          replaying := !(peek.buffer.drop size).isEmpty }
      have hserve : peek.serve size = some (peek.buffer.take size, served) :=
        if_pos ⟨hserves hbuffer, hbuffer⟩
      have hstopped' : served.recording = false := hstopped
      simp only [through, hserve] at h
      obtain ⟨seen, hmakes, htaken, hgiven⟩ := ih (.ok (peek.buffer.take size)) hstopped'
        (fun hrest => by simpa [served] using hrest) h
      refine ⟨_, .read hmakes, ?_, hgiven⟩
      have htaken' : seen.flatMap Call.taken ++ last.buffer =
          peek.buffer.drop size ++ live.flatMap Call.taken := htaken
      rw [List.flatMap_cons, List.append_assoc, htaken', ← List.append_assoc]
      exact congrArg (· ++ _) (List.take_append_drop size peek.buffer)
  | write data next ih =>
    intro peek last live value hstopped hserves h
    cases h with
    | @write _ _ answer live _ h =>
      obtain ⟨seen, hmakes, htaken, hgiven⟩ := ih answer hstopped hserves h
      refine ⟨_, .write hmakes, htaken, ?_⟩
      rw [List.flatMap_cons, List.flatMap_cons, hgiven]
  | flush next ih =>
    intro peek last live value hstopped hserves h
    cases h with
    | @flush _ answer live _ h =>
      obtain ⟨seen, hmakes, htaken, hgiven⟩ := ih answer hstopped hserves h
      exact ⟨_, .flush hmakes, htaken, hgiven⟩
  | report event next ih =>
    intro peek last live value hstopped hserves h
    cases h with
    | report h =>
      obtain ⟨seen, hmakes, hrest⟩ := ih hstopped hserves h
      exact ⟨seen, .report hmakes, hrest⟩

end SniffProxy
