import SniffProxy.Proofs.Stream.Run

/-!
# Runs with a deadline

A session that waits on a scripted stream may have a deadline. A run that ends in time does not see
it; every other run is cut off by it and is left waiting, whether it would end later or never.

* `Script.DueBy` — nothing happens on a stream after some time; `Session.run_dueBy`.
* `Session.run_inTime`, `Session.run_late` — the two things that a deadline can do.
-/

namespace SniffProxy

/-! ## The clock -/

namespace Script

/-- All events of the stream are there by this time. -/
def DueBy (limit : Nat) (script : Script) : Prop :=
  ∀ event ∈ script.events, event.due ≤ limit

theorem readEvents_time {afterwards : Afterwards} {size : Nat} :
    ∀ {events : List ReadEvent} {now time : Nat} {answer : Except IoError Bytes}
      {rest : List ReadEvent}, readEvents afterwards size now events = .ready time answer rest →
      now ≤ time ∧ ∀ limit, (∀ event ∈ events, event.due ≤ limit) →
        ∀ event ∈ rest, event.due ≤ limit := by
  intro events
  induction events with
  | nil =>
    intro now time answer rest h
    cases afterwards with
    | closed =>
      cases h
      exact ⟨Nat.le_refl now, fun _ => id⟩
    | silent => cases h
  | cons event events ih =>
    intro now time answer rest h
    obtain ⟨due, delivery⟩ := event
    have hnow : now ≤ max now due := Nat.le_max_left _ _
    cases delivery with
    | endOfStream =>
      cases h
      exact ⟨hnow, fun _ => id⟩
    | failure error =>
      cases h
      exact ⟨hnow, fun _ hall => (List.forall_mem_cons.mp hall).2⟩
    | data bytes =>
      cases bytes with
      | nil =>
        obtain ⟨hlater, hrest⟩ := ih h
        exact ⟨Nat.le_trans hnow hlater,
          fun limit hall => hrest limit (List.forall_mem_cons.mp hall).2⟩
      | cons b bytes =>
        simp only [readEvents] at h
        split at h
        · cases h
          exact ⟨hnow, fun _ hall => List.forall_mem_cons.mpr (List.forall_mem_cons.mp hall)⟩
        · cases h
          exact ⟨hnow, fun _ hall => (List.forall_mem_cons.mp hall).2⟩

/-- A read takes its time forward and adds no event. -/
theorem read_time {script : Script} {size now time : Nat} {answer : Except IoError Bytes}
    {events : List ReadEvent} (h : script.read size now = .ready time answer events) :
    now ≤ time ∧ ∀ limit, script.DueBy limit → DueBy limit { script with events } := by
  unfold Script.read at h
  split at h
  · cases h
    exact ⟨Nat.le_refl now, fun _ hall => hall⟩
  · exact readEvents_time h

theorem write_events {script after : Script} {data : Bytes} {answer : Except IoError Nat}
    (h : script.write data = .ready answer after) : after.events = script.events := by
  unfold write at h
  split at h
  · cases h
    rfl
  · split at h
    · cases h
    · cases h
      rfl

end Script

namespace Session

variable {α : Type}

/-- What is left of a stream holds no event that was not there before. -/
theorem run_dueBy {deadline : Option Nat} {limit : Nat} (s : Session α) (now : Nat)
    {script : Script} (h : script.DueBy limit) :
    (s.run deadline now script).script.DueBy limit := by
  refine run_invariant ?_ ?_ s now h
  · intro script size now time answer events hdue hread
    exact (Script.read_time hread).2 limit hdue
  · intro script after data answer hdue hwrite event hmem
    rw [Script.write_events hwrite] at hmem
    exact hdue event hmem

theorem run_time_le {deadline : Option Nat} :
    ∀ {s : Session α} {now time : Nat} {script rest : Script} {value : α} {log : List LogEvent},
      s.run deadline now script = .finished value time rest log → now ≤ time := by
  intro s
  induction s with
  | done value =>
    intro now time script rest value log h
    cases h
    exact Nat.le_refl now
  | read size next ih =>
    intro now time script rest value log h
    simp only [run] at h
    split at h
    · cases h
    · rename_i readTime answer events hread
      split at h
      · cases h
      · exact Nat.le_trans (Script.read_time hread).1 (ih answer h)
  | write data next ih =>
    intro now time script rest value log h
    simp only [run] at h
    split at h
    · cases h
    · exact ih _ h
  | flush next ih =>
    intro now time script rest value log h
    exact ih _ h
  | report event next ih =>
    intro now time script rest value log h
    obtain ⟨tail, hrun, -⟩ := logged_eq_finished h
    exact ih hrun

/-! ## Deadlines -/

/-- **A run that ends in time does not see the deadline.** -/
theorem run_inTime {deadline : Nat} :
    ∀ {s : Session α} {now time : Nat} {script rest : Script} {value : α} {log : List LogEvent},
      s.run none now script = .finished value time rest log → time ≤ deadline →
      s.run (some deadline) now script = .finished value time rest log := by
  intro s
  induction s with
  | done value =>
    intro now time script rest value log h _
    exact h
  | read size next ih =>
    intro now time script rest value log h htime
    simp only [run] at h ⊢
    split at h
    · cases h
    · rename_i readTime answer events hread
      have hrest : (next answer).run none readTime { script with events } =
          .finished value time rest log := h
      have hnot : isLate readTime (some deadline) = false := by
        have := run_time_le hrest
        exact decide_eq_false (by omega)
      rw [hnot]
      exact ih answer hrest htime
  | write data next ih =>
    intro now time script rest value log h htime
    simp only [run] at h ⊢
    split at h
    · cases h
    · exact ih _ h htime
  | flush next ih =>
    intro now time script rest value log h htime
    exact ih _ h htime
  | report event next ih =>
    intro now time script rest value log h htime
    obtain ⟨tail, hrun, rfl⟩ := logged_eq_finished h
    simp only [run, ih hrun htime, Outcome.logged]

/-- **A run that would not end in time is left waiting**, whether it would end at all or not. -/
theorem run_late {deadline : Nat} :
    ∀ {s : Session α} {now : Nat} {script : Script}, now ≤ deadline →
      (∀ value time rest log, s.run none now script = .finished value time rest log →
        deadline < time) →
      ∃ rest log, s.run (some deadline) now script = .waiting rest log := by
  intro s
  induction s with
  | done value =>
    intro now script hnow hlate
    have := hlate value now script [] rfl
    omega
  | read size next ih =>
    intro now script hnow hlate
    simp only [run] at hlate ⊢
    split
    · exact ⟨script, [], rfl⟩
    · rename_i readTime answer events hread
      rw [hread] at hlate
      split
      · exact ⟨script, [], rfl⟩
      · rename_i hintime
        have hreadTime : readTime ≤ deadline := by simpa [isLate] using hintime
        exact ih answer hreadTime hlate
  | write data next ih =>
    intro now script hnow hlate
    simp only [run] at hlate ⊢
    split
    · exact ⟨script, [], rfl⟩
    · rename_i answer after hwrite
      rw [hwrite] at hlate
      exact ih answer hnow hlate
  | flush next ih =>
    intro now script hnow hlate
    exact ih _ hnow hlate
  | report event next ih =>
    intro now script hnow hlate
    have hnext : ∀ value time rest log, next.run none now script = .finished value time rest log →
        deadline < time := by
      intro value time rest log h
      exact hlate value time rest (event :: log) (by simp only [run, h, Outcome.logged])
    obtain ⟨rest, log, hrun⟩ := ih hnow hnext
    exact ⟨rest, event :: log, by simp only [run, hrun, Outcome.logged]⟩

/-- A run with a deadline does not end after it. -/
theorem run_time_le_deadline {deadline : Nat} {s : Session α} {now time : Nat}
    {script rest : Script} {value : α} {log : List LogEvent} (hnow : now ≤ deadline)
    (h : s.run (some deadline) now script = .finished value time rest log) : time ≤ deadline := by
  by_cases hends : ∃ value time rest log, s.run none now script = .finished value time rest log ∧
      time ≤ deadline
  · obtain ⟨value', time', rest', log', hrun, htime⟩ := hends
    rw [run_inTime hrun htime] at h
    cases h
    exact htime
  · have hlate : ∀ value time rest log, s.run none now script = .finished value time rest log →
        deadline < time := by
      intro value time rest log hrun
      exact Nat.lt_of_not_le fun htime => hends ⟨value, time, rest, log, hrun, htime⟩
    obtain ⟨_, _, hwaiting⟩ := run_late hnow hlate
    rw [hwaiting] at h
    cases h

end Session

end SniffProxy
