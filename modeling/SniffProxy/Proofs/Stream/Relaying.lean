import SniffProxy.Proofs.Stream.Flow

/-!
# What a relay keeps

A relay is two flows cut off at the earliest end. A flow that is cut off has made some first part of
its moves, so that what its sink accepted is a first part of what its source delivered, and what was
counted but not accepted fits in its buffer. This holds wherever the flow is cut off, so it does not
matter whose turn comes first at the moment of the end.

* `Flow.before_isPrefix`, `Flow.before_last` — what is left of a flow that is cut off.
* `Relay.ending_cases` — what ends a relay.
* `Relay.Integrity` — what the report on a relay says about the bytes; `Relay.run_integrity`.
-/

namespace SniffProxy

/-! ## A flow that is cut off -/

namespace Flow

variable {capacity start : Nat} {data : Bytes} {ends : Bool} {flow : Flow}

theorem filter_isPrefix {moves : List (Nat × Move)} (time : Nat)
    (h : moves.Pairwise fun move next => move.1 ≤ next.1) :
    moves.filter (fun move => move.1 < time) <+: moves := by
  induction moves with
  | nil => exact List.nil_prefix
  | cons move moves ih =>
    obtain ⟨hlater, hrest⟩ := List.pairwise_cons.mp h
    by_cases hmove : move.1 < time
    · rw [List.filter_cons_of_pos (by simpa using hmove)]
      exact List.cons_prefix_cons.mpr ⟨rfl, ih hrest⟩
    · -- every move after this one is later still
      have hnone : (move :: moves).filter (fun move => move.1 < time) = [] := by
        rw [List.filter_eq_nil_iff]
        intro other hmem
        rcases List.mem_cons.mp hmem with rfl | hmem
        · simpa using hmove
        · have := hlater other hmem
          simp only [decide_eq_true_eq]
          omega
      rw [hnone]
      exact List.nil_prefix

/-- A flow that is cut off has made the first of its moves. -/
theorem Copies.before_isPrefix (h : Copies capacity start data ends flow) (time : Nat) :
    flow.before time <+: flow.moves.map Prod.snd := by
  obtain ⟨rest, hrest⟩ := filter_isPrefix time h.ordered
  refine ⟨rest.map Prod.snd, ?_⟩
  rw [before, ← List.map_append, hrest]

/-- A flow that comes to its own end has made all of them. -/
theorem Copies.before_last (h : Copies capacity start data ends flow) {time : Nat}
    {result : Except IoError Unit} (hend : flow.ending = some (time, result)) :
    flow.before (time + 1) = flow.moves.map Prod.snd := by
  have hall : flow.moves.filter (fun move => move.1 < time + 1) = flow.moves := by
    rw [List.filter_eq_self]
    intro move hmem
    simpa [Nat.lt_succ_iff] using (h.last time result hend).2 move hmem
  rw [before, hall]

/-- What a flow has moved when it is cut off: it gave a first part of the data, and what it took
beyond that fits in its buffer. -/
structure Cut (capacity : Nat) (data : Bytes) (moves : List Move) : Prop where
  given_isPrefix : (Move.given moves).flatten <+: data
  given_le : (Move.given moves).flatten.length ≤ (Move.taken moves).flatten.length
  taken_le : (Move.taken moves).flatten.length ≤ (Move.given moves).flatten.length + capacity

/-- **Cutting a flow off** loses at most what fits in its buffer, and never reorders anything. -/
theorem Copies.cut (h : Copies capacity start data ends flow) (time : Nat) :
    Cut capacity data (flow.before time) := by
  obtain ⟨left, hmoves⟩ := h.buffered
  have hfirst := h.before_isPrefix time
  obtain ⟨held, hheld⟩ := hmoves.of_isPrefix hfirst
  have hconserves := hheld.conserves
  have hfits := hheld.left_le (Nat.zero_le capacity)
  have htaken : (Move.taken (flow.before time)).flatten <+: data := by
    obtain ⟨rest, hrest⟩ := hfirst
    refine List.IsPrefix.trans ?_ h.taken
    rw [← hrest, Move.taken_append, List.flatten_append]
    exact List.prefix_append _ _
  rw [List.nil_append] at hconserves
  have hlength := congrArg List.length hconserves
  rw [List.length_append] at hlength
  constructor
  case given_isPrefix => exact List.IsPrefix.trans ⟨held, hconserves.symm⟩ htaken
  case given_le => omega
  case taken_le => omega

/-- A flow that ends well has given all the data, and taken no more. -/
theorem Copies.cut_complete (h : Copies capacity start data ends flow) {time : Nat}
    (hend : flow.ending = some (time, .ok ())) :
    ends = true ∧ (Move.given (flow.before (time + 1))).flatten = data ∧
      (Move.taken (flow.before (time + 1))).flatten = data := by
  obtain ⟨hends, hgiven⟩ := h.complete time hend
  have hcut := (h.cut (time + 1)).given_le
  rw [h.before_last hend] at hcut ⊢
  rw [hgiven] at hcut
  exact ⟨hends, hgiven, h.taken.eq_of_length_le hcut⟩

end Flow

/-! ## The end of a relay -/

/-- What ended a direction can be told from the end of the relay. -/
theorem RelayEnd.ofDirection_inj {part : Part} {stop other : Nat × Except IoError Unit}
    (h : ofDirection part stop = ofDirection part other) : stop = other := by
  obtain ⟨time, result⟩ := stop
  obtain ⟨otherTime, otherResult⟩ := other
  obtain rfl : time = otherTime := congrArg RelayEnd.time h
  have hresult := congrArg RelayEnd.result h
  cases result <;> cases otherResult <;> cases hresult <;> rfl

namespace Turns

/-- A part that ends a relay has made all its moves of that moment. -/
@[simp] theorem reach_self (turns : Turns) (time : Nat) (part : Part) :
    turns.reach time part part = time + 1 :=
  if_pos (Nat.le_refl _)

/-- What was moved before the moment was moved in any case, and nothing behind it. -/
theorem reach_cases (turns : Turns) (time : Nat) (last part : Part) :
    turns.reach time last part = time ∨ turns.reach time last part = time + 1 := by
  unfold reach
  split
  · exact .inr rfl
  · exact .inl rfl

/-- The first of two ends is one of them. -/
theorem firstEnd_cases (turns : Turns) (x : RelayEnd) (next : Option RelayEnd) :
    turns.firstEnd x next = x ∨ next = some (turns.firstEnd x next) := by
  cases next with
  | none => exact .inl rfl
  | some y =>
    unfold firstEnd
    dsimp only
    split
    · exact .inr rfl
    · exact .inl rfl

theorem firstEnd_time_le (turns : Turns) (x : RelayEnd) (next : Option RelayEnd) :
    (turns.firstEnd x next).time ≤ x.time := by
  cases next with
  | none => exact Nat.le_refl _
  | some y =>
    unfold firstEnd
    dsimp only
    split
    · rename_i hsooner
      simp only [sooner, Bool.or_eq_true, Bool.and_eq_true, decide_eq_true_eq] at hsooner
      omega
    · exact Nat.le_refl _

end Turns

namespace Relay

variable {turns : Turns} {start timeout : Nat} {up down : Flow}

/-- **Three things can end a relay**: either direction, or the idle check. -/
theorem ending_cases (turns : Turns) (start timeout : Nat) (up down : Flow) :
    (∃ stop, up.ending = some stop ∧
      ending turns start timeout up down = .ofDirection .upload stop) ∨
    (∃ stop, down.ending = some stop ∧
      ending turns start timeout up down = .ofDirection .download stop) ∨
    ending turns start timeout up down = .ofIdle (idleTime turns start timeout up down) := by
  unfold ending
  dsimp only
  rcases Turns.firstEnd_cases turns (turns.firstEnd (.ofIdle (idleTime turns start timeout up down))
      (down.ending.map (.ofDirection .download))) (up.ending.map (.ofDirection .upload))
    with hrest | hup
  · rw [hrest]
    rcases Turns.firstEnd_cases turns (.ofIdle (idleTime turns start timeout up down))
        (down.ending.map (.ofDirection .download)) with hidle | hdown
    · exact .inr (.inr hidle)
    · obtain ⟨stop, hstop, heq⟩ := Option.map_eq_some_iff.mp hdown
      exact .inr (.inl ⟨stop, hstop, heq.symm⟩)
  · obtain ⟨stop, hstop, heq⟩ := Option.map_eq_some_iff.mp hup
    exact .inl ⟨stop, hstop, heq.symm⟩

/-- If the upload ends a relay, it ends then and so. -/
theorem ending_upload {stop : Nat × Except IoError Unit}
    (h : ending turns start timeout up down = .ofDirection .upload stop) :
    up.ending = some stop := by
  rcases ending_cases turns start timeout up down with
    ⟨other, hup, hother⟩ | ⟨_, -, hother⟩ | hother
  · rw [h] at hother
    rw [hup, RelayEnd.ofDirection_inj hother]
  · rw [h] at hother
    cases congrArg RelayEnd.part hother
  · rw [h] at hother
    cases congrArg RelayEnd.part hother

/-- A direction has come to its end if a relay is completed. -/
theorem ending_completed (h : (ending turns start timeout up down).result = .ok true) :
    (∃ time, up.ending = some (time, .ok ()) ∧
      ending turns start timeout up down = .ofDirection .upload (time, .ok ())) ∨
    ∃ time, down.ending = some (time, .ok ()) ∧
      ending turns start timeout up down = .ofDirection .download (time, .ok ()) := by
  rcases ending_cases turns start timeout up down with
    ⟨⟨time, result⟩, hup, hstop⟩ | ⟨⟨time, result⟩, hdown, hstop⟩ | hstop
  · cases result with
    | error error =>
      rw [hstop] at h
      cases h
    | ok => exact .inl ⟨time, hup, hstop⟩
  · cases result with
    | error error =>
      rw [hstop] at h
      cases h
    | ok => exact .inr ⟨time, hdown, hstop⟩
  · rw [hstop] at h
    cases h

/-- The idle check ends a relay at the latest. -/
theorem ending_le_idleTime (turns : Turns) (start timeout : Nat) (up down : Flow) :
    (ending turns start timeout up down).time ≤ idleTime turns start timeout up down :=
  Nat.le_trans (Turns.firstEnd_time_le _ _ _) (Turns.firstEnd_time_le _ _ _)

theorem idleEnd_ge (period seconds : Nat) :
    ∀ (last : Nat) (stirs : List Stir), period ≤ idleEnd period seconds last stirs := by
  intro last stirs
  have hcheck : ∀ time, period ≤ checkFrom period time := by
    intro time
    rw [checkFrom]
    exact Nat.le_mul_of_pos_left period (by omega)
  induction stirs generalizing last with
  | nil => exact hcheck _
  | cons stir rest ih =>
    simp only [idleEnd]
    split
    · exact ih _
    · exact hcheck _

/-- The idle check never ends a relay in its first second. -/
theorem idleTime_ge (turns : Turns) (start timeout : Nat) (up down : Flow) :
    start + 1000 ≤ idleTime turns start timeout up down := by
  have hperiod : 1000 ≤ idlePeriod timeout := Nat.le_max_left _ _
  refine Nat.add_le_add_left ?_ start
  exact Nat.le_trans hperiod (idleEnd_ge _ _ _ _)

/-! ## The outbound side -/

/-- What the upward direction copies: what a peek still replays, then the stream of the client. -/
def upward (peek : Peek) (client : Script) : Bytes :=
  (if peek.replaying then peek.buffer else []) ++ client.content

/-- The end of the client's stream ends the relay: everything up to it was accepted by then. A
buffer without capacity never comes to it. -/
def EndsWithClient (turns : Turns) (capacity timeout start : Nat) (peek : Peek)
    (client outbound : Script) : Prop :=
  let up := Flow.ofSource capacity start peek client outbound
  let down := Flow.ofSource capacity start .transparent outbound client
  0 < capacity ∧
    ∃ time, ending turns start timeout up down = .ofDirection .upload (time, .ok ())

/-- A client's stream that ends in the first second ends the relay, if the other one is open. -/
theorem endsWithClient_of_early {capacity start time : Nat} (turns : Turns) (timeout : Nat)
    {peek : Peek} {client outbound : Script} (hcapacity : 0 < capacity)
    (hup : (Flow.ofSource capacity start peek client outbound).ending = some (time, .ok ()))
    (hearly : time < start + 1000)
    (hdown : (Flow.ofSource capacity start .transparent outbound client).ending = none) :
    EndsWithClient turns capacity timeout start peek client outbound := by
  refine ⟨hcapacity, time, ?_⟩
  have hidle := idleTime_ge turns start timeout (Flow.ofSource capacity start peek client outbound)
    (Flow.ofSource capacity start .transparent outbound client)
  have hsooner := decide_eq_true (Nat.lt_of_lt_of_le hearly hidle)
  simp only [ending, hup, hdown, Option.map_some, Option.map_none, Turns.firstEnd, Turns.sooner,
    RelayEnd.ofDirection, RelayEnd.ofIdle, hsooner, Bool.true_or, if_true]

/-- The outbound stream accepts a first part of what goes upward, however the relay ends. -/
theorem run_outbound_isPrefix (turns : Turns) (capacity timeout start : Nat) (peek : Peek)
    (client outbound : Script) :
    (run turns capacity timeout start peek client outbound).outboundReceived.flatten <+:
      upward peek client := by
  by_cases hcapacity : capacity = 0
  · have hnothing :
        (run turns capacity timeout start peek client outbound).outboundReceived = [] := by
      simp only [run, report, movesOf, Flow.ofSource, if_pos hcapacity]
      rfl
    rw [hnothing]
    exact List.nil_prefix
  · have hcopies := Flow.ofSource_copies (Nat.pos_of_ne_zero hcapacity) start peek client outbound
    exact (hcopies.cut _).given_isPrefix

/-- The direction that ends a relay has made its moves up to that moment. -/
theorem movesOf_last (turns : Turns) (part : Part) (stop : Nat × Except IoError Unit)
    (flow : Flow) :
    movesOf turns (.ofDirection part stop) part flow = flow.before (stop.1 + 1) :=
  congrArg flow.before (turns.reach_self stop.1 part)

/-- It has accepted all of it if the end of the client's stream ends the relay. -/
theorem run_outbound_complete {capacity timeout start : Nat} {peek : Peek}
    {client outbound : Script}
    (h : EndsWithClient turns capacity timeout start peek client outbound) :
    (run turns capacity timeout start peek client outbound).outboundReceived.flatten =
      upward peek client := by
  obtain ⟨hcapacity, time, hending⟩ := h
  have hcopies := Flow.ofSource_copies hcapacity start peek client outbound
  have hend := ending_upload hending
  simp only [run, report, hending, movesOf_last]
  exact (hcopies.cut_complete hend).2.1

/-! ## The report -/

/-- What a report says about the bytes of both directions: `up` and `down` are what the two sources
deliver, and `upEnds`, `downEnds` say whether they come to an end. -/
structure Integrity (capacity : Nat) (up down : Bytes) (upEnds downEnds : Bool)
    (report : RelayReport) : Prop where
  /-- However the relay ends, the accepted bytes are the first ones, once each and in order. -/
  outbound_isPrefix : report.outboundReceived.flatten <+: up
  client_isPrefix : report.clientReceived.flatten <+: down
  /-- What was counted and not accepted fits in the buffer. -/
  up_counted : ∀ tally, report.result = .ok tally →
    report.outboundReceived.flatten.length ≤ tally.up ∧
      tally.up ≤ report.outboundReceived.flatten.length + capacity
  down_counted : ∀ tally, report.result = .ok tally →
    report.clientReceived.flatten.length ≤ tally.down ∧
      tally.down ≤ report.clientReceived.flatten.length + capacity
  /-- A completed relay has copied the whole of a stream that ended. -/
  completed : ∀ tally, report.result = .ok tally → tally.completed = true →
    (upEnds = true ∧ report.outboundReceived.flatten = up ∧
        tally.up = report.outboundReceived.flatten.length) ∨
      (downEnds = true ∧ report.clientReceived.flatten = down ∧
        tally.down = report.clientReceived.flatten.length)

/-- A report without an error counts what both flows took, and tells what ended them. -/
theorem report_ok {tally : Tally}
    (h : (report turns start timeout up down).result = .ok tally) :
    tally.up = (Move.taken (movesOf turns (ending turns start timeout up down) .upload
        up)).flatten.length ∧
      tally.down = (Move.taken (movesOf turns (ending turns start timeout up down) .download
        down)).flatten.length ∧
      (ending turns start timeout up down).result = .ok tally.completed := by
  simp only [report] at h
  cases hresult : (ending turns start timeout up down).result with
  | error error =>
    rw [hresult] at h
    cases h
  | ok completed =>
    rw [hresult] at h
    cases h
    exact ⟨rfl, rfl, rfl⟩

/-- **Two flows cut off** keep the integrity of both directions. -/
theorem report_integrity {capacity : Nat} {upData downData : Bytes} {upEnds downEnds : Bool}
    (turns : Turns) (timeout : Nat) (hup : up.Copies capacity start upData upEnds)
    (hdown : down.Copies capacity start downData downEnds) :
    Integrity capacity upData downData upEnds downEnds (report turns start timeout up down) := by
  let stop := ending turns start timeout up down
  have hupCut : Flow.Cut capacity upData (movesOf turns stop .upload up) := hup.cut _
  have hdownCut : Flow.Cut capacity downData (movesOf turns stop .download down) := hdown.cut _
  constructor
  case outbound_isPrefix => exact hupCut.given_isPrefix
  case client_isPrefix => exact hdownCut.given_isPrefix
  case up_counted =>
    intro tally htally
    rw [(report_ok htally).1]
    exact ⟨hupCut.given_le, hupCut.taken_le⟩
  case down_counted =>
    intro tally htally
    rw [(report_ok htally).2.1]
    exact ⟨hdownCut.given_le, hdownCut.taken_le⟩
  case completed =>
    intro tally htally hcompleted
    obtain ⟨hupCount, hdownCount, hreason⟩ := report_ok htally
    rw [hcompleted] at hreason
    rcases ending_completed hreason with ⟨time, hend, hstop⟩ | ⟨time, hend, hstop⟩
    · obtain ⟨hends, hgiven, htaken⟩ := hup.cut_complete hend
      rw [hstop, movesOf_last] at hupCount
      refine .inl ⟨hends, ?_, ?_⟩
      · simp only [report, hstop, movesOf_last]
        exact hgiven
      · simp only [report, hstop, movesOf_last]
        rw [hupCount, htaken, hgiven]
    · obtain ⟨hends, hgiven, htaken⟩ := hdown.cut_complete hend
      rw [hstop, movesOf_last] at hdownCount
      refine .inr ⟨hends, ?_, ?_⟩
      · simp only [report, hstop, movesOf_last]
        exact hgiven
      · simp only [report, hstop, movesOf_last]
        rw [hdownCount, htaken, hgiven]

/-- **A relay keeps the integrity of both directions**, for every pair of scripted streams, every
timeout and every buffer that holds anything at all, whosever turn comes first at any moment. -/
theorem run_integrity {capacity : Nat} (hcapacity : 0 < capacity) (turns : Turns)
    (timeout start : Nat) (client outbound : Script) :
    Integrity capacity client.content outbound.content client.ends outbound.ends
      (run turns capacity timeout start .transparent client outbound) :=
  report_integrity turns timeout
    (Flow.ofSource_copies hcapacity start .transparent client outbound)
    (Flow.ofSource_copies hcapacity start .transparent outbound client)

/-- A client that ends, before a peer that accepts one byte at a time. -/
theorem run_integrity_slow_peer :
    0 < 2 ∧ ∀ turns : Turns, Integrity 2 [1, 2, 3] [] true false
      (run turns 2 5000 0 .transparent { events := [⟨0, .data [1, 2, 3]⟩, ⟨7, .endOfStream⟩] }
        { afterwards := .silent, limits := { perWrite := some 1 } }) :=
  ⟨by decide, fun turns => run_integrity (by decide : 0 < 2) turns 5000 0
    { events := [⟨0, .data [1, 2, 3]⟩, ⟨7, .endOfStream⟩] }
    { afterwards := .silent, limits := { perWrite := some 1 } }⟩

/-- Of two sides that say a byte and hang up at the same moment, one is not even read. -/
example :
    let side : Script := { events := [⟨0, .data [7]⟩, ⟨0, .endOfStream⟩] }
    (run (fun _ => .upload) 8 5000 0 .transparent side side).result = .ok ⟨1, 0, true⟩ ∧
      (run (fun _ => .download) 8 5000 0 .transparent side side).result = .ok ⟨0, 1, true⟩ := by
  constructor <;> cbv

end Relay

end SniffProxy
