import SniffProxy.Proofs.Stream.Content

/-!
# When a stream delivers its data

An event of a scripted stream is there once its own time and the times of all events before it have
come. What matters to a reader that never waits is which bytes fall due at which moment, and when
and how the stream ends; how the bytes of one moment are cut into events does not.

* `Script.arrivals` — the data of a stream up to its end, with the times at which it falls due.
* `Script.endingFrom` — when and how a stream ends.
* `Script.SameSchedule` — two streams that deliver the same at every moment and end alike;
  `Script.SameSchedule.cut` is what such streams may differ in.
-/

namespace SniffProxy

/-! ## Arrivals -/

/-- Data and the time at which it falls due. -/
structure Arrival where
  time : Nat
  bytes : Bytes
  deriving DecidableEq, Repr

namespace Arrival

/-- The data of some arrivals that falls due before a time. -/
def before (time : Nat) (arrivals : List Arrival) : Bytes :=
  (arrivals.filter (·.time < time)).flatMap bytes

/-- The data of some arrivals that falls due at just this time. -/
def dueAt (time : Nat) (arrivals : List Arrival) : Bytes :=
  (arrivals.filter (·.time = time)).flatMap bytes

@[simp] theorem before_nil (time : Nat) : before time [] = [] := rfl

@[simp] theorem dueAt_nil (time : Nat) : dueAt time [] = [] := rfl

theorem before_cons (time : Nat) (arrival : Arrival) (rest : List Arrival) :
    before time (arrival :: rest) =
      (if arrival.time < time then arrival.bytes else []) ++ before time rest := by
  by_cases h : arrival.time < time <;> simp [before, h]

theorem dueAt_cons (time : Nat) (arrival : Arrival) (rest : List Arrival) :
    dueAt time (arrival :: rest) =
      (if arrival.time = time then arrival.bytes else []) ++ dueAt time rest := by
  by_cases h : arrival.time = time <;> simp [dueAt, h]

/-- Nothing falls due at a time without arrivals. -/
theorem dueAt_eq_nil {time : Nat} {arrivals : List Arrival}
    (h : ∀ arrival ∈ arrivals, arrival.time ≠ time) : dueAt time arrivals = [] := by
  have hnone : arrivals.filter (·.time = time) = [] := by
    rw [List.filter_eq_nil_iff]
    intro arrival hmem
    simpa using h arrival hmem
  rw [dueAt, hnone]
  rfl

/-- Nothing falls due before the first arrival. -/
theorem before_eq_nil {time : Nat} {arrivals : List Arrival}
    (h : ∀ arrival ∈ arrivals, time ≤ arrival.time) : before time arrivals = [] := by
  have hnone : arrivals.filter (·.time < time) = [] := by
    rw [List.filter_eq_nil_iff]
    intro arrival hmem
    have := h arrival hmem
    simp only [decide_eq_true_eq]
    omega
  rw [before, hnone]
  rfl

/-- Arrivals in the order of their times fall due moment by moment. -/
theorem before_succ {arrivals : List Arrival}
    (hordered : arrivals.Pairwise fun arrival next => arrival.time ≤ next.time) (time : Nat) :
    before (time + 1) arrivals = before time arrivals ++ dueAt time arrivals := by
  induction arrivals with
  | nil => rfl
  | cons arrival rest ih =>
    obtain ⟨hlater, hrest⟩ := List.pairwise_cons.mp hordered
    rw [before_cons, before_cons, dueAt_cons, ih hrest]
    rcases Nat.lt_trichotomy arrival.time time with hlt | heq | hgt
    · simp [hlt, Nat.ne_of_lt hlt, Nat.lt_succ_of_lt hlt]
    · -- whatever comes after this arrival is not before it
      have hnone : before time rest = [] := by
        refine before_eq_nil fun next hmem => ?_
        have := hlater next hmem
        omega
      simp [heq, hnone]
    · have hlate : ¬ arrival.time < time + 1 := by omega
      have hnot : ¬ arrival.time < time := by omega
      simp [hlate, hnot, Nat.ne_of_gt hgt]

end Arrival

namespace Script

/-! ## The schedule of a stream -/

/-- The data of some events, as it falls due from `now` on, up to the event that ends the stream. A
read that is only interrupted ends nothing. -/
def arrivalsOf : (now : Nat) → List ReadEvent → List Arrival
  | _, [] => []
  | now, event :: rest =>
    let time := max now event.due
    match event.delivery with
    | .data bytes => ⟨time, bytes⟩ :: arrivalsOf time rest
    | .endOfStream => []
    | .failure .interrupted => arrivalsOf time rest
    | .failure _ => []

/-- When and how some events end a stream, if they do. -/
def endingOf (afterwards : Afterwards) :
    (now : Nat) → List ReadEvent → Option (Nat × Except IoError Unit)
  | now, [] =>
    match afterwards with
    | .closed => some (now, .ok ())
    | .silent => none
  | now, event :: rest =>
    let time := max now event.due
    match event.delivery with
    | .data _ => endingOf afterwards time rest
    | .endOfStream => some (time, .ok ())
    | .failure .interrupted => endingOf afterwards time rest
    | .failure error => some (time, .error error)

/-- The data of a stream up to its end, for a reader that begins at `start`. -/
def arrivals (start : Nat) (script : Script) : List Arrival :=
  arrivalsOf start script.events

/-- When and how a stream ends, for a reader that begins at `start`. -/
def endingFrom (start : Nat) (script : Script) : Option (Nat × Except IoError Unit) :=
  endingOf script.afterwards start script.events

/-- The data that falls due at just this time. -/
def dueAt (start : Nat) (script : Script) (time : Nat) : Bytes :=
  Arrival.dueAt time (script.arrivals start)

/-- The data that falls due before a time. -/
def dueBefore (start : Nat) (script : Script) (time : Nat) : Bytes :=
  Arrival.before time (script.arrivals start)

theorem arrivalsOf_ordered :
    ∀ {events : List ReadEvent} {now : Nat},
      (∀ arrival ∈ arrivalsOf now events, now ≤ arrival.time) ∧
        (arrivalsOf now events).Pairwise fun arrival next => arrival.time ≤ next.time := by
  intro events
  induction events with
  | nil =>
    intro now
    exact ⟨nofun, List.Pairwise.nil⟩
  | cons event rest ih =>
    intro now
    obtain ⟨due, delivery⟩ := event
    obtain ⟨hlater, hordered⟩ := @ih (max now due)
    have hlater' : ∀ arrival ∈ arrivalsOf (max now due) rest, now ≤ arrival.time :=
      fun arrival hmem => Nat.le_trans (Nat.le_max_left now due) (hlater arrival hmem)
    cases delivery with
    | endOfStream => exact ⟨nofun, List.Pairwise.nil⟩
    | failure error =>
      cases error with
      | interrupted => exact ⟨hlater', hordered⟩
      | _ => exact ⟨nofun, List.Pairwise.nil⟩
    | data bytes =>
      exact ⟨List.forall_mem_cons.mpr ⟨Nat.le_max_left now due, hlater'⟩,
        List.pairwise_cons.mpr ⟨hlater, hordered⟩⟩

/-- The data of a stream falls due moment by moment. -/
theorem dueBefore_succ (start : Nat) (script : Script) (time : Nat) :
    script.dueBefore start (time + 1) =
      script.dueBefore start time ++ script.dueAt start time :=
  Arrival.before_succ arrivalsOf_ordered.2 time

/-! ## Streams with one schedule -/

/-- Two streams that deliver the same bytes at every moment and end alike, however the bytes of one
moment are cut into events. -/
structure SameSchedule (start : Nat) (script other : Script) : Prop where
  data : ∀ time, script.dueAt start time = other.dueAt start time
  ending : script.endingFrom start = other.endingFrom start

theorem SameSchedule.dueBefore_eq {start : Nat} {script other : Script}
    (h : script.SameSchedule start other) (time : Nat) :
    script.dueBefore start time = other.dueBefore start time := by
  induction time with
  | zero =>
    have hnone : ∀ s : Script, s.dueBefore start 0 = [] := fun s =>
      Arrival.before_eq_nil fun arrival _ => Nat.zero_le arrival.time
    rw [hnone, hnone]
  | succ time ih => rw [dueBefore_succ, dueBefore_succ, ih, h.data]

/-- Data that is cut in two within its moment falls due as before. -/
theorem arrivalsOf_cut (due : Nat) (x y : Bytes) (back : List ReadEvent) (time : Nat) :
    ∀ (front : List ReadEvent) (now : Nat),
      Arrival.dueAt time (arrivalsOf now (front ++ ⟨due, .data (x ++ y)⟩ :: back)) =
        Arrival.dueAt time
          (arrivalsOf now (front ++ ⟨due, .data x⟩ :: ⟨due, .data y⟩ :: back)) := by
  intro front
  induction front with
  | nil =>
    intro now
    simp only [List.nil_append, arrivalsOf, Arrival.dueAt_cons, Nat.max_assoc, Nat.max_self]
    split <;> simp
  | cons event front ih =>
    intro now
    obtain ⟨first, delivery⟩ := event
    cases delivery with
    | endOfStream => rfl
    | failure error =>
      cases error with
      | interrupted => exact ih (max now first)
      | _ => rfl
    | data bytes =>
      simp only [List.cons_append, arrivalsOf, Arrival.dueAt_cons, ih]

theorem endingOf_cut (afterwards : Afterwards) (due : Nat) (x y : Bytes) (back : List ReadEvent) :
    ∀ (front : List ReadEvent) (now : Nat),
      endingOf afterwards now (front ++ ⟨due, .data (x ++ y)⟩ :: back) =
        endingOf afterwards now (front ++ ⟨due, .data x⟩ :: ⟨due, .data y⟩ :: back) := by
  intro front
  induction front with
  | nil =>
    intro now
    simp only [List.nil_append, endingOf, Nat.max_assoc, Nat.max_self]
  | cons event front ih =>
    intro now
    obtain ⟨first, delivery⟩ := event
    cases delivery with
    | endOfStream => rfl
    | failure error =>
      cases error with
      | interrupted => exact ih (max now first)
      | _ => rfl
    | data bytes => exact ih (max now first)

/-- **Cutting an event in two** leaves the schedule as it was. -/
theorem SameSchedule.cut (start : Nat) (script : Script) (front back : List ReadEvent) (due : Nat)
    (x y : Bytes) :
    SameSchedule start { script with events := front ++ ⟨due, .data (x ++ y)⟩ :: back }
      { script with events := front ++ ⟨due, .data x⟩ :: ⟨due, .data y⟩ :: back } where
  data time := arrivalsOf_cut due x y back time front start
  ending := endingOf_cut script.afterwards due x y back front start

end Script

end SniffProxy
