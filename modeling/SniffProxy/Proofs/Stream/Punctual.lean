import SniffProxy.Proofs.Stream.Idle
import SniffProxy.Proofs.Stream.Schedule

/-!
# Relays without delay

A direction whose sink accepts everything hands its data on at the moment at which it falls due. What
it has taken and given by some time is then known from the schedule of its source alone, whatever the
capacity of its buffer, and so is all that a relay of two such directions reports.

* `Flow.Punctual` — a flow that keeps to a schedule; `Flow.ofEvents_punctual`.
* `Relay.Apart` — nothing falls due at the moment at which something else may end the relay;
  `Relay.EndsApart` — nor do two things end it at one moment.
* `Relay.run_punctual` — what both sides receive, and that it depends on the two schedules only.
-/

namespace SniffProxy

/-! ## Sinks that accept everything -/

theorem Script.write_of_unlimited {sink : Script} (h : sink.limits = {}) (data : Bytes) :
    ∃ after, sink.write data = .ready (.ok data.length) after ∧ after.limits = {} := by
  refine ⟨{ sink with
    accepted := sink.accepted + data.length
    writtenRev := data.take data.length :: sink.writtenRev }, ?_, h⟩
  simp [Script.write, Script.acceptable, h, Script.reached, Script.capAt]

theorem Script.flush_of_unlimited {sink : Script} (h : sink.limits = {}) : sink.flush = .ok () := by
  simp [Script.flush, h]

namespace Flow

variable {capacity : Nat}

theorem endWaiting_of_unlimited {sink : Script} (h : sink.limits = {}) (unflushed : Bool)
    (now : Nat) : endWaiting unflushed now sink = none := by
  simp [endWaiting, Script.flush_of_unlimited h]

/-- One write is enough for a sink that accepts everything. -/
theorem give_of_unlimited {sink : Script} (h : sink.limits = {}) (time : Nat) (data : Bytes) :
    ∃ moves after, give time data.length sink data = (moves, .ok after) ∧ after.limits = {} := by
  cases data with
  | nil => exact ⟨[], sink, rfl, h⟩
  | cons b data =>
    obtain ⟨after, hwrite, hafter⟩ := Script.write_of_unlimited h (b :: data)
    refine ⟨[(time, .gave (b :: data))], after, ?_, hafter⟩
    simp only [List.length_cons] at hwrite
    simp only [List.length_cons, give, hwrite, List.take_succ_cons, List.take_length,
      List.drop_succ_cons, List.drop_length]

theorem pass_of_unlimited (time : Nat) :
    ∀ (pieces : List Bytes) {sink : Script}, sink.limits = {} →
      ∃ moves after, pass time sink pieces = (moves, .ok after) ∧ after.limits = {} := by
  intro pieces
  induction pieces with
  | nil =>
    intro sink h
    exact ⟨[], sink, rfl, h⟩
  | cons piece rest ih =>
    intro sink h
    obtain ⟨moves, between, hgive, hbetween⟩ := give_of_unlimited h time piece
    obtain ⟨more, after, hpass, hafter⟩ := ih hbetween
    refine ⟨(time, .took piece) :: (moves ++ more), after, ?_, hafter⟩
    simp only [pass, hgive, hpass]

/-! ## Flows on schedule -/

/-- A flow that hands the data of a schedule on at the moment at which it falls due, and ends with
the schedule. -/
structure Punctual (arrivals : List Arrival) (ending : Option (Nat × Except IoError Unit))
    (flow : Flow) : Prop where
  taken : ∀ time, (Move.taken (flow.before time)).flatten = Arrival.before time arrivals
  given : ∀ time, (Move.given (flow.before time)).flatten = Arrival.before time arrivals
  activity : ∀ time, time ∈ flow.activity ↔ Arrival.dueAt time arrivals ≠ []
  ending : flow.ending = ending

theorem punctual_nil (ending : Option (Nat × Except IoError Unit)) :
    Punctual [] ending ⟨[], ending⟩ where
  taken _ := rfl
  given _ := rfl
  activity _ := by simp [Flow.activity]
  ending := rfl

/-- Something moved when bytes were taken. -/
theorem exists_move_of_taken {moves : List Move} (h : (Move.taken moves).flatten ≠ []) :
    ∃ move ∈ moves, move.bytes ≠ [] := by
  obtain ⟨piece, hpiece, hne⟩ : ∃ piece ∈ Move.taken moves, piece ≠ [] := by
    simpa [List.flatten_eq_nil_iff] using h
  obtain ⟨move, hmem, hmove⟩ := List.mem_filterMap.mp hpiece
  cases move with
  | took bytes =>
    cases hmove
    exact ⟨_, hmem, hne⟩
  | gave bytes => cases hmove

/-- Nothing moves while nothing is taken or given. -/
theorem taken_or_given_of_move {moves : List Move} {move : Move} (hmem : move ∈ moves)
    (hne : move.bytes ≠ []) :
    (Move.taken moves).flatten ≠ [] ∨ (Move.given moves).flatten ≠ [] := by
  cases move with
  | took bytes =>
    refine .inl fun hnil => hne ?_
    exact List.flatten_eq_nil_iff.mp hnil bytes (List.mem_filterMap.mpr ⟨_, hmem, rfl⟩)
  | gave bytes =>
    refine .inr fun hnil => hne ?_
    exact List.flatten_eq_nil_iff.mp hnil bytes (List.mem_filterMap.mpr ⟨_, hmem, rfl⟩)

theorem before_after (moves : List (Nat × Move)) (flow : Flow) (time : Nat) :
    (flow.after moves).before time =
      ((moves.filter fun move => move.1 < time).map Prod.snd) ++ flow.before time := by
  simp [before, after]

theorem activity_after (moves : List (Nat × Move)) (flow : Flow) :
    (flow.after moves).activity =
      ((moves.filter fun move => !move.2.bytes.isEmpty).map Prod.fst) ++ flow.activity := by
  simp [Flow.activity, after]

/-- **Bytes in front**: a flow on schedule goes on after bytes that were handed over at once. -/
theorem Punctual.after {arrivals : List Arrival} {ending : Option (Nat × Except IoError Unit)}
    {flow : Flow} {time : Nat} {bytes : Bytes} {moves : List (Nat × Move)} {sink : Script}
    (h : Punctual arrivals ending flow)
    (hpasses : Passes capacity time [] bytes (moves, .ok sink)) :
    Punctual (⟨time, bytes⟩ :: arrivals) ending (flow.after moves) := by
  have htaken : (Move.taken (moves.map Prod.snd)).flatten = bytes := hpasses.complete sink rfl
  have hgiven : (Move.given (moves.map Prod.snd)).flatten = bytes := hpasses.given_eq
  have hcut : ∀ t, (moves.filter fun move => move.1 < t) = if time < t then moves else [] := by
    intro t
    split
    · rename_i hlt
      rw [List.filter_eq_self]
      intro move hmem
      rw [hpasses.at_once move hmem]
      simpa using hlt
    · rename_i hlate
      rw [List.filter_eq_nil_iff]
      intro move hmem
      rw [hpasses.at_once move hmem]
      simpa using hlate
  constructor
  case taken =>
    intro t
    rw [before_after, hcut, Move.taken_append, List.flatten_append, h.taken, Arrival.before_cons]
    by_cases hlt : time < t <;> simp [hlt, htaken]
  case given =>
    intro t
    rw [before_after, hcut, Move.given_append, List.flatten_append, h.given, Arrival.before_cons]
    by_cases hlt : time < t <;> simp [hlt, hgiven]
  case activity =>
    intro t
    have hmoved : t ∈ (moves.filter fun move => !move.2.bytes.isEmpty).map Prod.fst ↔
        time = t ∧ bytes ≠ [] := by
      simp only [List.mem_map, List.mem_filter, Bool.not_eq_true', List.isEmpty_eq_false_iff]
      constructor
      · rintro ⟨move, ⟨hmem, hne⟩, rfl⟩
        refine ⟨(hpasses.at_once move hmem).symm, ?_⟩
        have hmove := taken_or_given_of_move (List.mem_map_of_mem hmem) hne
        rw [htaken, hgiven, or_self] at hmove
        exact hmove
      · rintro ⟨rfl, hne⟩
        rw [← htaken] at hne
        obtain ⟨move, hmem, hbytes⟩ := exists_move_of_taken hne
        obtain ⟨timed, htimed, rfl⟩ := List.mem_map.mp hmem
        exact ⟨timed, ⟨htimed, hbytes⟩, hpasses.at_once timed htimed⟩
    rw [activity_after, List.mem_append, hmoved, h.activity, Arrival.dueAt_cons]
    by_cases heq : time = t
    · simp [heq, ← not_and_or]
    · simp [heq]
  case ending => exact h.ending

/-- **Copying the events of a source** into a sink that accepts everything keeps to their
schedule. -/
theorem ofEvents_punctual (hcapacity : 0 < capacity) (afterwards : Afterwards) :
    ∀ {events : List ReadEvent} {unflushed : Bool} {now : Nat} {sink : Script}, sink.limits = {} →
      Punctual (Script.arrivalsOf now events) (Script.endingOf afterwards now events)
        (ofEvents capacity afterwards unflushed now sink events) := by
  intro events
  induction events with
  | nil =>
    intro unflushed now sink h
    cases afterwards with
    | closed =>
      simp only [ofEvents, Script.flush_of_unlimited h]
      exact punctual_nil _
    | silent =>
      simp only [ofEvents, endWaiting_of_unlimited h]
      exact punctual_nil _
  | cons event rest ih =>
    intro unflushed now sink h
    obtain ⟨due, delivery⟩ := event
    simp only [ofEvents, endWaiting_of_unlimited h, ite_self]
    cases delivery with
    | endOfStream =>
      simp only [Script.flush_of_unlimited h]
      exact punctual_nil _
    | failure error =>
      cases error with
      | interrupted => exact ih h
      | _ => exact punctual_nil _
    | data bytes =>
      have hpasses := passBytes_passes hcapacity (max now due) sink bytes
      obtain ⟨moves, after, hpass, hafter⟩ :=
        pass_of_unlimited (max now due) (pieces capacity bytes.length bytes) h
      have hall : passBytes capacity (max now due) sink bytes = (moves, .ok after) := hpass
      rw [hall] at hpasses
      simp only [hall]
      exact (ih hafter).after hpasses

theorem ofSource_punctual (hcapacity : 0 < capacity) (start : Nat) (source : Script)
    {sink : Script} (h : sink.limits = {}) :
    Punctual (source.arrivals start) (source.endingFrom start)
      (ofSource capacity start .transparent source sink) := by
  have hsource : ofSource capacity start .transparent source sink =
      ofEvents capacity source.afterwards false start sink source.events := by
    simp [ofSource, Nat.ne_of_gt hcapacity, Peek.transparent, passBytes, pieces, pass, after]
  rw [hsource]
  exact ofEvents_punctual hcapacity source.afterwards h

end Flow

/-! ## Both directions -/

namespace Relay

/-- What has fallen due on a stream when a relay ends: the data before that time and, if the end of
the stream itself is there at that time, all the data that stands before it. -/
def dueUntil (start : Nat) (script : Script) (time : Nat) : Bytes :=
  if (script.endingFrom start).map Prod.fst = some time then script.dueBefore start (time + 1)
  else script.dueBefore start time

/-- Two streams whose events keep apart: nothing falls due on one of them when the other one ends,
and nothing at the time of an idle check. -/
structure Apart (start timeout : Nat) (client outbound : Script) : Prop where
  client_ends : ∀ time result, client.endingFrom start = some (time, result) →
    outbound.dueAt start time = []
  outbound_ends : ∀ time result, outbound.endingFrom start = some (time, result) →
    client.dueAt start time = []
  checks : ∀ check, 0 < check → idlePeriod timeout ∣ check →
    client.dueAt start (start + check) = [] ∧ outbound.dueAt start (start + check) = []

/-- Two streams whose ends keep apart: neither comes when the other one does, nor at the time of an
idle check. -/
structure EndsApart (start timeout : Nat) (client outbound : Script) : Prop where
  ends : ∀ stop other, client.endingFrom start = some stop →
    outbound.endingFrom start = some other → stop.1 ≠ other.1
  checks : ∀ check, 0 < check → idlePeriod timeout ∣ check → ∀ stop,
    client.endingFrom start = some stop ∨ outbound.endingFrom start = some stop →
    stop.1 ≠ start + check

/-- What a report says about a relay that lost nothing: each side has received what fell due on the
other one, and just that was counted. -/
structure Complete (start : Nat) (client outbound : Script) (report : RelayReport) : Prop where
  outbound_received : report.outboundReceived.flatten = dueUntil start client report.finishedAt
  client_received : report.clientReceived.flatten = dueUntil start outbound report.finishedAt
  counted : ∀ tally, report.result = .ok tally →
    tally.up = (dueUntil start client report.finishedAt).length ∧
      tally.down = (dueUntil start outbound report.finishedAt).length

/-- Two reports that tell the same, but for how the writes are cut. -/
structure SameReport (report other : RelayReport) : Prop where
  result : report.result = other.result
  finishedAt : report.finishedAt = other.finishedAt
  outbound_received : report.outboundReceived.flatten = other.outboundReceived.flatten
  client_received : report.clientReceived.flatten = other.clientReceived.flatten

variable {turns turns' : Turns} {start timeout : Nat} {up down up' down' : Flow}
  {client outbound client' outbound' : Script}

/-! ### What is received -/

/-- A flow on schedule has moved what was due, whether or not it had its turn in the last round, if
nothing was due in that round unless the flow itself ended it. -/
theorem movesOf_punctual {stop : RelayEnd} {part : Part} {flow : Flow} {script : Script}
    (h : flow.Punctual (script.arrivals start) (script.endingFrom start))
    (hstop : (∃ last, script.endingFrom start = some last ∧ stop = .ofDirection part last) ∨
      script.dueAt start stop.time = []) :
    (Move.taken (movesOf turns stop part flow)).flatten = dueUntil start script stop.time ∧
      (Move.given (movesOf turns stop part flow)).flatten = dueUntil start script stop.time := by
  have hdue : script.dueBefore start (turns.reach stop.time stop.part part) =
      dueUntil start script stop.time := by
    rcases hstop with ⟨last, hlast, rfl⟩ | hnone
    · show script.dueBefore start (turns.reach last.1 part part) = dueUntil start script last.1
      rw [Turns.reach_self, dueUntil, hlast, if_pos (Option.map_some ..)]
    · have hsucc : script.dueBefore start (stop.time + 1) = script.dueBefore start stop.time := by
        rw [Script.dueBefore_succ, hnone, List.append_nil]
      have hreach : script.dueBefore start (turns.reach stop.time stop.part part) =
          script.dueBefore start stop.time := by
        rcases Turns.reach_cases turns stop.time stop.part part with heq | heq <;> rw [heq]
        exact hsucc
      rw [hreach, dueUntil, hsucc, ite_self]
  exact ⟨(h.taken _).trans hdue, (h.given _).trans hdue⟩

/-- At the end of a relay nothing falls due on a stream that does not itself end the relay. -/
theorem dueAt_ending (turns : Turns)
    (hup : up.Punctual (client.arrivals start) (client.endingFrom start))
    (hdown : down.Punctual (outbound.arrivals start) (outbound.endingFrom start))
    (hapart : Apart start timeout client outbound) :
    let stop := ending turns start timeout up down
    ((∃ last, client.endingFrom start = some last ∧ stop = .ofDirection .upload last) ∨
        client.dueAt start stop.time = []) ∧
      ((∃ last, outbound.endingFrom start = some last ∧ stop = .ofDirection .download last) ∨
        outbound.dueAt start stop.time = []) := by
  intro stop
  rcases ending_cases turns start timeout up down with
    ⟨last, hend, hstop⟩ | ⟨last, hend, hstop⟩ | hstop
  · rw [hup.ending] at hend
    refine ⟨.inl ⟨last, hend, hstop⟩, .inr ?_⟩
    rw [show stop.time = last.1 from congrArg RelayEnd.time hstop]
    exact hapart.client_ends _ _ hend
  · rw [hdown.ending] at hend
    refine ⟨.inr ?_, .inl ⟨last, hend, hstop⟩⟩
    rw [show stop.time = last.1 from congrArg RelayEnd.time hstop]
    exact hapart.outbound_ends _ _ hend
  · obtain ⟨check, hcheck, hfinds, -⟩ := idleTime_isLeast turns start timeout up down
    obtain ⟨hclient, houtbound⟩ := hapart.checks check hfinds.positive hfinds.onTick
    rw [show stop.time = start + check from (congrArg RelayEnd.time hstop).trans hcheck]
    exact ⟨.inr hclient, .inr houtbound⟩

/-- A report on two flows on schedule counts what was due. -/
theorem report_result (turns : Turns)
    (hup : up.Punctual (client.arrivals start) (client.endingFrom start))
    (hdown : down.Punctual (outbound.arrivals start) (outbound.endingFrom start))
    (hapart : Apart start timeout client outbound) :
    (report turns start timeout up down).result =
      (ending turns start timeout up down).result.map fun completed =>
        ⟨(dueUntil start client (ending turns start timeout up down).time).length,
          (dueUntil start outbound (ending turns start timeout up down).time).length,
          completed⟩ := by
  obtain ⟨hclient, houtbound⟩ := dueAt_ending turns hup hdown hapart
  simp only [report, (movesOf_punctual hup hclient).1, (movesOf_punctual hdown houtbound).1]

/-- **Two flows on schedule** bring each side what falls due on the other one. -/
theorem report_complete (turns : Turns)
    (hup : up.Punctual (client.arrivals start) (client.endingFrom start))
    (hdown : down.Punctual (outbound.arrivals start) (outbound.endingFrom start))
    (hapart : Apart start timeout client outbound) :
    Complete start client outbound (report turns start timeout up down) := by
  obtain ⟨hclient, houtbound⟩ := dueAt_ending turns hup hdown hapart
  constructor
  case outbound_received => exact (movesOf_punctual hup hclient).2
  case client_received => exact (movesOf_punctual hdown houtbound).2
  case counted =>
    intro tally hresult
    obtain ⟨hupCount, hdownCount, -⟩ := report_ok hresult
    rw [hupCount, hdownCount, (movesOf_punctual hup hclient).1,
      (movesOf_punctual hdown houtbound).1]
    exact ⟨rfl, rfl⟩

/-! ### What it depends on -/

/-- With nothing due at the times of checks, a check finds a pair on schedule idle if all that was due
before is old enough, whosever turn comes first. -/
theorem findsIdle_iff {period seconds check : Nat}
    (hup : up.Punctual (client.arrivals start) (client.endingFrom start))
    (hdown : down.Punctual (outbound.arrivals start) (outbound.endingFrom start))
    (hchecks : ∀ check, 0 < check → period ∣ check →
      client.dueAt start (start + check) = [] ∧ outbound.dueAt start (start + check) = []) :
    FindsIdle period seconds 0 (allStirs turns start up down) check ↔
      (0 < check ∧ period ∣ check ∧ 0 + seconds ≤ check / 1000) ∧
      ∀ time, client.dueAt start time ≠ [] ∨ outbound.dueAt start time ≠ [] →
        time - start < check → (time - start) / 1000 + seconds ≤ check / 1000 := by
  have hactive : ∀ time, time ∈ up.activity ∨ time ∈ down.activity ↔
      client.dueAt start time ≠ [] ∨ outbound.dueAt start time ≠ [] :=
    fun time => or_congr (hup.activity time) (hdown.activity time)
  constructor
  · intro h
    refine ⟨⟨h.positive, h.onTick, h.since_last⟩, fun time hdue hbefore => ?_⟩
    rcases (hactive time).mpr hdue with htime | htime
    · exact h.since_activity _ (mem_allStirs.mpr (.inl ⟨time, htime, rfl⟩))
        (Stir.seenBy_iff.mpr (.inl hbefore))
    · exact h.since_activity _ (mem_allStirs.mpr (.inr ⟨time, htime, rfl⟩))
        (Stir.seenBy_iff.mpr (.inl hbefore))
  · rintro ⟨⟨hpositive, honTick, hsince⟩, hall⟩
    refine ⟨hpositive, honTick, hsince, fun stir hmem hseen => ?_⟩
    obtain ⟨time, htime, hstir⟩ : ∃ time, (time ∈ up.activity ∨ time ∈ down.activity) ∧
        stir.time = time - start := by
      rcases mem_allStirs.mp hmem with ⟨time, htime, rfl⟩ | ⟨time, htime, rfl⟩
      · exact ⟨time, .inl htime, rfl⟩
      · exact ⟨time, .inr htime, rfl⟩
    have hdue := (hactive time).mp htime
    have hbefore : time - start < check := by
      rcases Nat.lt_or_eq_of_le (Stir.seenBy_le hseen) with hlt | heq
      · omega
      · -- nothing is due at the moment of a check
        obtain rfl : time = start + check := by omega
        obtain ⟨hclient, houtbound⟩ := hchecks check hpositive honTick
        rcases hdue with hdue | hdue
        · exact absurd hclient hdue
        · exact absurd houtbound hdue
    rw [hstir]
    exact hall time hdue hbefore

/-- Streams on the same schedules keep apart alike. -/
theorem Apart.congr (h : Apart start timeout client outbound)
    (hclient : client.SameSchedule start client')
    (houtbound : outbound.SameSchedule start outbound') :
    Apart start timeout client' outbound' where
  client_ends time result hend := by
    rw [← houtbound.data]
    exact h.client_ends time result (hclient.ending.trans hend)
  outbound_ends time result hend := by
    rw [← hclient.data]
    exact h.outbound_ends time result (houtbound.ending.trans hend)
  checks check hpositive honTick := by
    rw [← hclient.data, ← houtbound.data]
    exact h.checks check hpositive honTick

/-- Flows on the same schedules are given up at the same check. -/
theorem idleTime_congr (hup : up.Punctual (client.arrivals start) (client.endingFrom start))
    (hdown : down.Punctual (outbound.arrivals start) (outbound.endingFrom start))
    (hup' : up'.Punctual (client'.arrivals start) (client'.endingFrom start))
    (hdown' : down'.Punctual (outbound'.arrivals start) (outbound'.endingFrom start))
    (hapart : Apart start timeout client outbound)
    (hclient : client.SameSchedule start client')
    (houtbound : outbound.SameSchedule start outbound') :
    idleTime turns start timeout up down = idleTime turns' start timeout up' down' := by
  obtain ⟨check, hcheck, hleast⟩ := idleTime_isLeast turns start timeout up down
  obtain ⟨check', hcheck', hleast'⟩ := idleTime_isLeast turns' start timeout up' down'
  have hset : {check | FindsIdle (idlePeriod timeout) (idleSeconds timeout) 0
      (allStirs turns start up down) check} =
      {check | FindsIdle (idlePeriod timeout) (idleSeconds timeout) 0
        (allStirs turns' start up' down') check} := by
    refine Set.ext fun check => ?_
    have hchecks' := (hapart.congr hclient houtbound).checks
    refine (findsIdle_iff hup hdown hapart.checks).trans
      (Iff.trans ?_ (findsIdle_iff hup' hdown' hchecks').symm)
    simp only [hclient.data, houtbound.data]
  rw [hset] at hleast
  rw [hcheck, hcheck', hleast.unique hleast']

/-- Of two ends at different moments the earlier one is first, whosever turn comes first. -/
theorem firstEnd_congr {x : RelayEnd} {next : Option RelayEnd}
    (h : ∀ y, next = some y → y.time ≠ x.time) : turns.firstEnd x next = turns'.firstEnd x next := by
  cases next with
  | none => rfl
  | some y =>
    have hne := h y rfl
    simp only [Turns.firstEnd, Turns.sooner, hne, decide_false, Bool.false_and]

/-- Ends that keep apart come in the same order, whosever turn comes first. -/
theorem ending_congr (hup : up.Punctual (client.arrivals start) (client.endingFrom start))
    (hdown : down.Punctual (outbound.arrivals start) (outbound.endingFrom start))
    (hup' : up'.Punctual (client'.arrivals start) (client'.endingFrom start))
    (hdown' : down'.Punctual (outbound'.arrivals start) (outbound'.endingFrom start))
    (hapart : Apart start timeout client outbound)
    (hturns : turns' = turns ∨ EndsApart start timeout client outbound)
    (hclient : client.SameSchedule start client')
    (houtbound : outbound.SameSchedule start outbound') :
    ending turns start timeout up down = ending turns' start timeout up' down' := by
  have hidle : idleTime turns start timeout up down = idleTime turns' start timeout up' down' :=
    idleTime_congr hup hdown hup' hdown' hapart hclient houtbound
  simp only [ending]
  rw [hup'.ending, hdown'.ending, ← hclient.ending, ← houtbound.ending, ← hidle, hup.ending,
    hdown.ending]
  rcases hturns with rfl | hends
  · rfl
  · obtain ⟨check, hcheck, hfinds, -⟩ := idleTime_isLeast turns start timeout up down
    have hchecks := hends.checks check hfinds.positive hfinds.onTick
    rw [← hcheck] at hchecks
    -- first the download against the check, then the upload against the first of them
    have hinner : turns.firstEnd (.ofIdle (idleTime turns start timeout up down))
          ((outbound.endingFrom start).map (.ofDirection .download)) =
        turns'.firstEnd (.ofIdle (idleTime turns start timeout up down))
          ((outbound.endingFrom start).map (.ofDirection .download)) := by
      refine firstEnd_congr fun y hy => ?_
      obtain ⟨stop, hstop, rfl⟩ := Option.map_eq_some_iff.mp hy
      exact hchecks stop (.inr hstop)
    rw [← hinner]
    refine firstEnd_congr fun y hy => ?_
    obtain ⟨stop, hstop, rfl⟩ := Option.map_eq_some_iff.mp hy
    rcases Turns.firstEnd_cases turns (.ofIdle (idleTime turns start timeout up down))
      ((outbound.endingFrom start).map (.ofDirection .download)) with hfirst | hfirst
    · rw [hfirst]
      exact hchecks stop (.inl hstop)
    · obtain ⟨other, hother, hfirst⟩ := Option.map_eq_some_iff.mp hfirst
      rw [← hfirst]
      exact hends.ends stop other hstop hother

/-- The schedules of two streams say what is due on them when a relay ends. -/
theorem dueUntil_congr {script script' : Script} (h : script.SameSchedule start script')
    (time : Nat) : dueUntil start script time = dueUntil start script' time := by
  simp only [dueUntil, h.ending, h.dueBefore_eq]

/-- **Two complete reports** on the same schedules that end alike tell the same. -/
theorem report_same (hup : up.Punctual (client.arrivals start) (client.endingFrom start))
    (hdown : down.Punctual (outbound.arrivals start) (outbound.endingFrom start))
    (hup' : up'.Punctual (client'.arrivals start) (client'.endingFrom start))
    (hdown' : down'.Punctual (outbound'.arrivals start) (outbound'.endingFrom start))
    (hapart : Apart start timeout client outbound)
    (hturns : turns' = turns ∨ EndsApart start timeout client outbound)
    (hclient : client.SameSchedule start client')
    (houtbound : outbound.SameSchedule start outbound') :
    SameReport (report turns start timeout up down) (report turns' start timeout up' down') := by
  have hending := ending_congr hup hdown hup' hdown' hapart hturns hclient houtbound
  have hfirst := report_complete turns hup hdown hapart
  have hsecond := report_complete turns' hup' hdown' (hapart.congr hclient houtbound)
  have htime : (report turns start timeout up down).finishedAt =
      (report turns' start timeout up' down').finishedAt := congrArg RelayEnd.time hending
  constructor
  case result =>
    rw [report_result turns hup hdown hapart,
      report_result turns' hup' hdown' (hapart.congr hclient houtbound), ← hending]
    simp only [dueUntil_congr hclient, dueUntil_congr houtbound]
  case finishedAt => exact htime
  case outbound_received =>
    rw [hfirst.outbound_received, hsecond.outbound_received, htime, dueUntil_congr hclient]
  case client_received =>
    rw [hfirst.client_received, hsecond.client_received, htime, dueUntil_congr houtbound]

/-- **Relay completeness and independence of chunking.** Between two streams that accept everything,
and whose events keep apart, each side receives just the data that falls due on the other one before
the end of the relay, and an orderly end counts just that, whosever turn comes first at any moment.
What is received and counted, the result and the time of the end are the same for every buffer that
holds anything and for every way of cutting the data of one moment into events; and if the ends of the
streams keep apart too, also whosever turn comes first. -/
theorem run_punctual {capacity timeout start : Nat} {client outbound : Script}
    (hcapacity : 0 < capacity) (hclient : client.limits = {}) (houtbound : outbound.limits = {})
    (hapart : Apart start timeout client outbound) (turns : Turns) :
    Complete start client outbound
        (run turns capacity timeout start .transparent client outbound) ∧
      ∀ (turns' : Turns) (capacity' : Nat) (client' outbound' : Script),
        turns' = turns ∨ EndsApart start timeout client outbound → 0 < capacity' →
        client'.limits = {} → outbound'.limits = {} → client.SameSchedule start client' →
        outbound.SameSchedule start outbound' →
        SameReport (run turns capacity timeout start .transparent client outbound)
          (run turns' capacity' timeout start .transparent client' outbound') := by
  have hup := Flow.ofSource_punctual hcapacity start client houtbound
  have hdown := Flow.ofSource_punctual hcapacity start outbound hclient
  refine ⟨report_complete turns hup hdown hapart, ?_⟩
  intro turns' capacity' client' outbound' hturns hcapacity' hclient' houtbound' hsameClient
    hsameOutbound
  exact report_same hup hdown (Flow.ofSource_punctual hcapacity' start client' houtbound')
    (Flow.ofSource_punctual hcapacity' start outbound' hclient') hapart hturns hsameClient
    hsameOutbound

/-- A client that says five bytes at one moment and hangs up, while the other side answers with two
and stays. A buffer of two bytes brings over what a buffer of seven does, when the five bytes come in
two events and the turns go the other way round. -/
theorem run_punctual_cut :
    let client : Script :=
      { events := [⟨1200, .data [1, 2, 3, 4, 5]⟩, ⟨7000, .endOfStream⟩], afterwards := .silent }
    let cut : Script :=
      { events := [⟨1200, .data [1, 2, 3]⟩, ⟨1200, .data [4, 5]⟩, ⟨7000, .endOfStream⟩],
        afterwards := .silent }
    let outbound : Script := { events := [⟨5500, .data [8, 9]⟩], afterwards := .silent }
    let report := run (fun _ => .upload) 2 5000 0 .transparent client outbound
    Apart 0 5000 client outbound ∧ EndsApart 0 5000 client outbound ∧
      client.SameSchedule 0 cut ∧ report.finishedAt = 7000 ∧
      report.outboundReceived.flatten = [1, 2, 3, 4, 5] ∧
      report.clientReceived.flatten = [8, 9] ∧
      SameReport report (run (fun _ => .download) 7 5000 0 .transparent cut outbound) := by
  intro client cut outbound report
  have hclient : ∀ time result, client.endingFrom 0 = some (time, result) → time = 7000 := by
    intro time result hend
    obtain ⟨rfl, -⟩ : 7000 = time ∧ Except.ok () = result := by
      simpa [client, Script.endingFrom, Script.endingOf] using hend
    rfl
  have hlate : ∀ check, 0 < check → idlePeriod 5000 ∣ check → ∃ round, check = 5000 * round := by
    rintro check - ⟨round, rfl⟩
    exact ⟨round, rfl⟩
  have hapart : Apart 0 5000 client outbound := by
    constructor
    case client_ends =>
      intro time result hend
      obtain rfl := hclient time result hend
      rfl
    case outbound_ends =>
      intro time result hend
      cases hend
    case checks =>
      intro check hpos htick
      obtain ⟨round, rfl⟩ := hlate check hpos htick
      refine ⟨Arrival.dueAt_eq_nil ?_, Arrival.dueAt_eq_nil ?_⟩
      · simp [client, Script.arrivals, Script.arrivalsOf]
        omega
      · simp [outbound, Script.arrivals, Script.arrivalsOf]
        omega
  have hends : EndsApart 0 5000 client outbound := by
    constructor
    case ends =>
      intro stop other _ hother
      cases hother
    case checks =>
      rintro check hpos htick ⟨time, result⟩ (hend | hend)
      · obtain ⟨round, rfl⟩ := hlate check hpos htick
        obtain rfl := hclient time result hend
        dsimp only
        omega
      · cases hend
  have hcut : client.SameSchedule 0 cut :=
    Script.SameSchedule.cut 0 client [] [⟨7000, .endOfStream⟩] 1200 [1, 2, 3] [4, 5]
  have hsame : outbound.SameSchedule 0 outbound := ⟨fun _ => rfl, rfl⟩
  obtain ⟨hcomplete, hall⟩ :=
    run_punctual (by decide : 0 < 2) rfl rfl hapart fun _ => .upload
  have hidle : idleTime (fun _ => .upload) 0 5000 (Flow.ofSource 2 0 .transparent client outbound)
      (Flow.ofSource 2 0 .transparent outbound client) = 10000 := by
    rw [idleTime_of_pairwise 0 5000 (by decide)]
    decide
  have htime : report.finishedAt = 7000 := by
    show (ending (fun _ => .upload) 0 5000 _ _).time = 7000
    rw [ending, hidle]
    rfl
  have hup := hcomplete.outbound_received
  have hdown := hcomplete.client_received
  rw [show (run (fun _ => .upload) 2 5000 0 .transparent client outbound).finishedAt = 7000
    from htime] at hup hdown
  exact ⟨hapart, hends, hcut, htime, hup, hdown,
    hall (fun _ => .download) 7 cut outbound (.inr hends) (by decide) rfl rfl hcut hsame⟩

end Relay

end SniffProxy
