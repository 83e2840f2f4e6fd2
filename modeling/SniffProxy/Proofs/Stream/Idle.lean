import Mathlib.Order.Bounds.Basic
import SniffProxy.Proofs.Stream.Deadline
import SniffProxy.Proofs.Stream.Relaying

/-!
# The idle check

The idle check looks at the clock once in each period and gives up at the first look that finds the
last activity long enough ago. Activity is finite, so such a look comes: a relay is over by then,
whatever its two streams do.

* `FindsIdle` — a check that gives up; `idleEnd_isLeast` says that the first of them is computed.
* `Relay.activity` — what a part has moved when its relay ends.
* `Relay.run_finishedAt_lt` — when a relay is over at the latest.
* `Relay.GivenUp` — how long a pair was idle that is given up; `Relay.run_idle_bounds`.
-/

namespace SniffProxy

/-! ## Checks -/

/-- The first positive multiple of the period from a time on. -/
theorem checkFrom_isLeast {period : Nat} (hperiod : 0 < period) (time : Nat) :
    IsLeast {check | 0 < check ∧ period ∣ check ∧ time ≤ check} (checkFrom period time) := by
  have hround : time ≤ (time + period - 1) / period * period := by
    have hmod := Nat.div_add_mod (time + period - 1) period
    have hlt := Nat.mod_lt (time + period - 1) hperiod
    rw [Nat.mul_comm] at hmod
    omega
  refine ⟨⟨?_, Nat.dvd_mul_left _ _, ?_⟩, ?_⟩
  · exact Nat.mul_pos (by omega) hperiod
  · exact Nat.le_trans hround (Nat.mul_le_mul_right period (Nat.le_max_right _ _))
  · rintro check ⟨hpositive, ⟨count, rfl⟩, hlate⟩
    have hcount : 0 < count := Nat.pos_of_mul_pos_left hpositive
    have hrounded : (time + period - 1) / period ≤ count := by
      refine Nat.le_of_lt_succ ((Nat.div_lt_iff_lt_mul hperiod).mpr ?_)
      rw [Nat.succ_mul, Nat.mul_comm count period]
      omega
    rw [checkFrom, Nat.mul_comm period count]
    exact Nat.mul_le_mul_right period (Nat.max_le.mpr ⟨hcount, hrounded⟩)

/-- It comes less than a period later. -/
theorem checkFrom_lt {period time : Nat} (hperiod : 0 < period) (htime : 0 < time) :
    checkFrom period time < time + period := by
  have hdiv := Nat.div_mul_le_self (time + period - 1) period
  have hone : 1 ≤ (time + period - 1) / period := by
    rw [Nat.le_div_iff_mul_le hperiod]
    omega
  rw [checkFrom, Nat.max_eq_right hone]
  omega

theorem Stir.seenBy_iff {check : Nat} {stir : Stir} :
    stir.seenBy check = true ↔ stir.time < check ∨ (stir.time = check ∧ stir.late = false) := by
  simp [seenBy]

/-- A check that sees something sees everything that is not after it. -/
theorem Stir.seenBy_of_notAfter {check : Nat} {stir next : Stir}
    (horder : stir.notAfter next = true) (h : next.seenBy check = true) :
    stir.seenBy check = true := by
  rw [seenBy_iff] at h ⊢
  have hbefore : stir.time < next.time ∨
      (stir.time = next.time ∧ (stir.late = false ∨ next.late = true)) := by
    simpa [notAfter] using horder
  rcases hbefore with hbefore | ⟨htime, hlate | hlate⟩
  · omega
  · rcases h with h | ⟨h, -⟩
    · exact .inl (by omega)
    · exact .inr ⟨by omega, hlate⟩
  · rcases h with h | ⟨-, h⟩
    · exact .inl (by omega)
    · rw [hlate] at h
      cases h

theorem Stir.time_le_of_notAfter {stir next : Stir} (h : stir.notAfter next = true) :
    stir.time ≤ next.time := by
  simp only [notAfter, Bool.or_eq_true, Bool.and_eq_true, decide_eq_true_eq] at h
  omega

theorem Stir.seenBy_le {check : Nat} {stir : Stir} (h : stir.seenBy check = true) :
    stir.time ≤ check := by
  rw [seenBy_iff] at h
  omega

/-- A later check sees what an earlier one has seen. -/
theorem Stir.seenBy_mono {check later : Nat} {stir : Stir} (hle : check ≤ later)
    (h : stir.seenBy check = true) : stir.seenBy later = true := by
  rw [seenBy_iff] at h ⊢
  rcases h with h | ⟨h, hlate⟩
  · exact .inl (by omega)
  · rcases Nat.eq_or_lt_of_le hle with rfl | hlt
    · exact .inr ⟨h, hlate⟩
    · exact .inl (by omega)

/-- A check that gives up on a pair of streams with activity at some times: the activity that it sees
is at least `seconds` old, where activity is dated by whole seconds. `last` is the second of what was
before. -/
structure FindsIdle (period seconds last : Nat) (stirs : List Stir) (check : Nat) : Prop where
  positive : 0 < check
  onTick : period ∣ check
  since_last : last + seconds ≤ check / 1000
  since_activity : ∀ stir ∈ stirs, stir.seenBy check = true →
    stir.time / 1000 + seconds ≤ check / 1000

/-- The check does not come before it could find the earlier activity old enough. -/
theorem FindsIdle.checkFrom_le {period seconds last check : Nat} {stirs : List Stir}
    (hperiod : 0 < period) (h : FindsIdle period seconds last stirs check) :
    checkFrom period (1000 * (last + seconds)) ≤ check := by
  have hsince := h.since_last
  exact (checkFrom_isLeast hperiod _).2 ⟨h.positive, h.onTick, by omega⟩

/-- The first check that finds the earlier activity old enough gives up if it sees nothing else. -/
theorem findsIdle_checkFrom {period : Nat} (hperiod : 0 < period) (seconds last : Nat)
    {stirs : List Stir}
    (hunseen : ∀ stir ∈ stirs,
      ¬ stir.seenBy (checkFrom period (1000 * (last + seconds))) = true) :
    FindsIdle period seconds last stirs (checkFrom period (1000 * (last + seconds))) := by
  obtain ⟨hpositive, honTick, hlate⟩ := (checkFrom_isLeast hperiod (1000 * (last + seconds))).1
  refine ⟨hpositive, honTick, by omega, fun stir hmem hseen => ?_⟩
  exact absurd hseen (hunseen stir hmem)

/-- A check asks only what moved when. -/
theorem FindsIdle.congr {period seconds last check : Nat} {stirs others : List Stir}
    (hsame : ∀ stir, stir ∈ stirs ↔ stir ∈ others) :
    FindsIdle period seconds last stirs check ↔ FindsIdle period seconds last others check := by
  constructor
  · intro h
    exact ⟨h.positive, h.onTick, h.since_last,
      fun stir hmem => h.since_activity stir ((hsame stir).mpr hmem)⟩
  · intro h
    exact ⟨h.positive, h.onTick, h.since_last,
      fun stir hmem => h.since_activity stir ((hsame stir).mp hmem)⟩

/-- **A check that gives up is not early**: the seconds have passed since the last activity that it
sees, but for the one second that flooring both times can hide. -/
theorem FindsIdle.notEarly {period seconds check last : Nat} {stirs : List Stir}
    (h : FindsIdle period seconds 0 stirs check)
    (hlast : last = 0 ∨ ∃ stir ∈ stirs, stir.time = last ∧ stir.seenBy check = true) :
    last + 1000 * seconds < check + 1000 := by
  have hdated : last / 1000 + seconds ≤ check / 1000 := by
    rcases hlast with rfl | ⟨stir, hmem, rfl, hseen⟩
    · have hsince := h.since_last
      omega
    · exact h.since_activity stir hmem hseen
  omega

/-- **A pair is given up in time**: no pair that is still watched has been idle for the seconds and
one period more. -/
theorem lt_of_findsIdle {period seconds elapsed last : Nat} {stirs : List Stir}
    (hperiod : 0 < period) (hseconds : 0 < seconds)
    (hwatched : ∀ check, FindsIdle period seconds 0 stirs check → elapsed ≤ check)
    (hlast : ∀ stir ∈ stirs, stir.time < elapsed → stir.time ≤ last) :
    elapsed < last + 1000 * seconds + period := by
  -- the first check that dates the last activity far enough back
  let check := checkFrom period (1000 * (last / 1000 + seconds))
  obtain ⟨hpositive, honTick, hlate⟩ :=
    (checkFrom_isLeast hperiod (1000 * (last / 1000 + seconds))).1
  have hsoon : check < 1000 * (last / 1000 + seconds) + period :=
    checkFrom_lt hperiod (by omega)
  have hfirst : elapsed ≤ check := by
    by_contra hmissed
    -- nothing that moved up to this check moved after the last activity
    have hfinds : FindsIdle period seconds 0 stirs check := by
      refine ⟨hpositive, honTick, by omega, fun stir hmem hseen => ?_⟩
      have hbefore := Stir.seenBy_le hseen
      have hold := hlast stir hmem (by omega)
      omega
    have := hwatched check hfinds
    omega
  omega

/-- Activity that the first possible check sees takes the place of what was before it. -/
theorem findsIdle_cons {period seconds last check : Nat} {stir : Stir} {rest : List Stir}
    (hperiod : 0 < period) (hlast : last ≤ stir.time / 1000)
    (hseen : stir.seenBy (checkFrom period (1000 * (last + seconds))) = true) :
    FindsIdle period seconds last (stir :: rest) check ↔
      FindsIdle period seconds (stir.time / 1000) rest check := by
  constructor
  · intro h
    have hsince := h.since_activity stir List.mem_cons_self
      (Stir.seenBy_mono (h.checkFrom_le hperiod) hseen)
    exact ⟨h.positive, h.onTick, hsince,
      fun s hmem => h.since_activity s (List.mem_cons_of_mem _ hmem)⟩
  · intro h
    have hsince := h.since_last
    exact ⟨h.positive, h.onTick, by omega,
      List.forall_mem_cons.mpr ⟨fun _ => hsince, h.since_activity⟩⟩

/-- **The idle check ends a pair at the first check that finds it idle.** -/
theorem idleEnd_isLeast {period : Nat} (hperiod : 0 < period) (seconds : Nat) :
    ∀ {stirs : List Stir} {last : Nat},
      stirs.Pairwise (fun stir next => stir.notAfter next = true) →
      (∀ stir ∈ stirs, last ≤ stir.time / 1000) →
      IsLeast {check | FindsIdle period seconds last stirs check}
        (idleEnd period seconds last stirs) := by
  intro stirs
  induction stirs with
  | nil =>
    intro last _ _
    exact ⟨findsIdle_checkFrom hperiod seconds last (List.forall_mem_nil _),
      fun check h => h.checkFrom_le hperiod⟩
  | cons stir rest ih =>
    intro last hsorted hlast
    obtain ⟨hrest, hsorted⟩ := List.pairwise_cons.mp hsorted
    obtain ⟨hlastTime, -⟩ := List.forall_mem_cons.mp hlast
    simp only [idleEnd]
    split
    · rename_i hseen
      have hsame : {check | FindsIdle period seconds last (stir :: rest) check} =
          {check | FindsIdle period seconds (stir.time / 1000) rest check} :=
        Set.ext fun check => findsIdle_cons hperiod hlastTime hseen
      rw [hsame]
      exact ih hsorted fun s hmem =>
        Nat.div_le_div_right (Stir.time_le_of_notAfter (hrest s hmem))
    · rename_i hunseen
      have hnone : ∀ s ∈ stir :: rest,
          ¬ s.seenBy (checkFrom period (1000 * (last + seconds))) = true :=
        List.forall_mem_cons.mpr
          ⟨hunseen, fun s hmem hseen => hunseen (Stir.seenBy_of_notAfter (hrest s hmem) hseen)⟩
      exact ⟨findsIdle_checkFrom hperiod seconds last hnone,
        fun check h => h.checkFrom_le hperiod⟩

/-! ## The end of a pair -/

theorem idlePeriod_pos (timeout : Nat) : 0 < idlePeriod timeout :=
  Nat.lt_of_lt_of_le (by decide) (Nat.le_max_left 1000 _)

theorem idleSeconds_pos (timeout : Nat) : 0 < idleSeconds timeout :=
  Nat.le_max_left 1 _

namespace Stir

theorem notAfter_trans (x y z : Stir) (hxy : x.notAfter y = true) (hyz : y.notAfter z = true) :
    x.notAfter z = true := by
  simp only [notAfter, Bool.or_eq_true, Bool.and_eq_true, decide_eq_true_eq,
    Bool.not_eq_true'] at *
  grind

theorem notAfter_total (x y : Stir) : (x.notAfter y || y.notAfter x) = true := by
  simp only [notAfter, Bool.or_eq_true, Bool.and_eq_true, decide_eq_true_eq,
    Bool.not_eq_true']
  grind

end Stir

/-- Bytes move with a move. -/
theorem Flow.activity_le {flow : Flow} {limit time : Nat} (h : ∀ move ∈ flow.moves, move.1 ≤ limit)
    (htime : time ∈ flow.activity) : time ≤ limit := by
  obtain ⟨move, hmove, rfl⟩ := List.mem_map.mp htime
  exact h move (List.mem_filter.mp hmove).1

namespace Relay

/-- The activity of both directions as the idle check comes to see it. -/
def allStirs (turns : Turns) (start : Nat) (up down : Flow) : List Stir :=
  stirs turns start .upload up ++ stirs turns start .download down

/-- **The idle check ends two flows at the first check that finds them idle.** -/
theorem idleTime_isLeast (turns : Turns) (start timeout : Nat) (up down : Flow) :
    ∃ check, idleTime turns start timeout up down = start + check ∧
      IsLeast {check | FindsIdle (idlePeriod timeout) (idleSeconds timeout) 0
        (allStirs turns start up down) check} check := by
  have hsorted : ((allStirs turns start up down).mergeSort Stir.notAfter).Pairwise
      fun stir next => stir.notAfter next = true :=
    List.pairwise_mergeSort Stir.notAfter_trans Stir.notAfter_total _
  have hsame : ∀ check,
      FindsIdle (idlePeriod timeout) (idleSeconds timeout) 0
        ((allStirs turns start up down).mergeSort Stir.notAfter) check ↔
      FindsIdle (idlePeriod timeout) (idleSeconds timeout) 0 (allStirs turns start up down)
        check :=
    fun _ => FindsIdle.congr fun _ => (List.mergeSort_perm _ _).mem_iff
  have hleast := idleEnd_isLeast (idlePeriod_pos timeout) (idleSeconds timeout) hsorted
    fun stir _ => Nat.zero_le (stir.time / 1000)
  rw [Set.ext hsame] at hleast
  exact ⟨_, rfl, hleast⟩

/-- Activity that is in order need not be sorted. -/
theorem idleTime_of_pairwise {turns : Turns} {up down : Flow} (start timeout : Nat)
    (h : (allStirs turns start up down).Pairwise fun stir next => stir.notAfter next = true) :
    idleTime turns start timeout up down =
      start + idleEnd (idlePeriod timeout) (idleSeconds timeout) 0
        (allStirs turns start up down) := by
  have hsame : (allStirs turns start up down).mergeSort Stir.notAfter =
      allStirs turns start up down :=
    List.mergeSort_of_pairwise h
  exact congrArg (fun sorted => start +
    idleEnd (idlePeriod timeout) (idleSeconds timeout) 0 sorted) hsame

/-- The idle check sees what the two flows move. -/
theorem mem_allStirs {turns : Turns} {start : Nat} {up down : Flow} {stir : Stir} :
    stir ∈ allStirs turns start up down ↔
      (∃ time ∈ up.activity, stir = ⟨time - start, turns.reach time .check .upload = time⟩) ∨
      ∃ time ∈ down.activity, stir = ⟨time - start, turns.reach time .check .download = time⟩ := by
  simp only [allStirs, stirs, List.mem_append, List.mem_map, eq_comm]

/-- **The idle check comes**: sooner than the idle seconds and one period after a time from which on
nothing moves. -/
theorem idleTime_lt {start limit : Nat} (turns : Turns) (timeout : Nat) {up down : Flow}
    (hstart : start ≤ limit) (hup : ∀ move ∈ up.moves, move.1 ≤ limit)
    (hdown : ∀ move ∈ down.moves, move.1 ≤ limit) :
    idleTime turns start timeout up down <
      limit + 1000 * idleSeconds timeout + idlePeriod timeout := by
  obtain ⟨check, hcheck, -, hleast⟩ := idleTime_isLeast turns start timeout up down
  have hlast : ∀ stir ∈ allStirs turns start up down, stir.time < check →
      stir.time ≤ limit - start := by
    intro stir hmem _
    rcases mem_allStirs.mp hmem with ⟨time, htime, rfl⟩ | ⟨time, htime, rfl⟩
    · exact Nat.sub_le_sub_right (Flow.activity_le hup htime) start
    · exact Nat.sub_le_sub_right (Flow.activity_le hdown htime) start
  have hsoon := lt_of_findsIdle (idlePeriod_pos timeout) (idleSeconds_pos timeout)
    (fun other hother => hleast hother) hlast
  omega

end Relay

/-! ## The last move -/

namespace Flow

/-- A direction moves nothing after its source has delivered everything. -/
theorem ofEvents_moves_le {capacity : Nat} (hcapacity : 0 < capacity) {afterwards : Afterwards}
    {limit : Nat} :
    ∀ {events : List ReadEvent} {unflushed : Bool} {now : Nat} {sink : Script}, now ≤ limit →
      (∀ event ∈ events, event.due ≤ limit) →
      ∀ move ∈ (ofEvents capacity afterwards unflushed now sink events).moves, move.1 ≤ limit := by
  intro events
  induction events with
  | nil =>
    intro unflushed now sink _ _ move hmem
    cases afterwards <;> cases hmem
  | cons event rest ih =>
    intro unflushed now sink hnow hdue move hmem
    obtain ⟨due, delivery⟩ := event
    obtain ⟨hevent, hrest⟩ := List.forall_mem_cons.mp hdue
    have htime : max now due ≤ limit := Nat.max_le.mpr ⟨hnow, hevent⟩
    simp only [ofEvents] at hmem
    split at hmem
    · cases hmem
    · cases delivery with
      | endOfStream => cases hmem
      | failure error =>
        cases error with
        | interrupted => exact ih htime hrest move hmem
        | _ => cases hmem
      | data bytes =>
        have honce := (passBytes_passes hcapacity (max now due) sink bytes).at_once
        dsimp only at hmem
        split at hmem
        · rename_i moves sink' heq
          rw [heq] at honce
          rcases List.mem_append.mp hmem with hmem | hmem
          · rw [honce move hmem]
            exact htime
          · exact ih htime hrest move hmem
        · rename_i moves halt heq
          rw [heq] at honce
          have hmoves : move ∈ moves := by
            rcases List.mem_append.mp hmem with hmem | hmem
            · exact hmem
            · cases halt <;> cases hmem
          rw [honce move hmoves]
          exact htime

theorem ofSource_moves_le (capacity : Nat) {start limit : Nat} (peek : Peek) {source : Script}
    (sink : Script) (hstart : start ≤ limit) (hsource : source.DueBy limit) :
    ∀ move ∈ (ofSource capacity start peek source sink).moves, move.1 ≤ limit := by
  intro move hmem
  simp only [ofSource] at hmem
  split at hmem
  · cases hmem
  · rename_i hcapacity
    have hpos : 0 < capacity := Nat.pos_of_ne_zero hcapacity
    have honce := (passBytes_passes hpos start sink
      (if peek.replaying then peek.buffer else [])).at_once
    split at hmem
    · rename_i moves sink' heq
      rw [heq] at honce
      rcases List.mem_append.mp hmem with hmem | hmem
      · rw [honce move hmem]
        exact hstart
      · exact ofEvents_moves_le hpos hstart hsource move hmem
    · rename_i moves halt heq
      rw [heq] at honce
      have hmoves : move ∈ moves := by
        rcases List.mem_append.mp hmem with hmem | hmem
        · exact hmem
        · cases halt <;> cases hmem
      rw [honce move hmoves]
      exact hstart

end Flow

/-- **A relay is over** sooner than the idle seconds and one period after everything that its two
streams deliver, whatever they accept. -/
theorem Relay.run_finishedAt_lt (turns : Turns) (capacity timeout : Nat) {start limit : Nat}
    (peek : Peek) {client outbound : Script} (hstart : start ≤ limit)
    (hclient : client.DueBy limit) (houtbound : outbound.DueBy limit) :
    (run turns capacity timeout start peek client outbound).finishedAt <
      limit + 1000 * idleSeconds timeout + idlePeriod timeout :=
  Nat.lt_of_le_of_lt (ending_le_idleTime _ _ _ _ _)
    (idleTime_lt turns timeout hstart
      (Flow.ofSource_moves_le capacity peek outbound hstart hclient)
      (Flow.ofSource_moves_le capacity .transparent client hstart houtbound))

/-! ## Pairs that are given up -/

/-- Nothing moves and nothing ends before the start. -/
theorem Flow.ofSource_start_le {capacity start : Nat} {peek : Peek} {source sink : Script}
    {stop : Nat × Except IoError Unit}
    (h : (ofSource capacity start peek source sink).ending = some stop) : start ≤ stop.1 := by
  by_cases hcapacity : capacity = 0
  · simp only [ofSource, if_pos hcapacity] at h
    cases h
    exact Nat.le_refl start
  · have hcopies := ofSource_copies (Nat.pos_of_ne_zero hcapacity) start peek source sink
    exact (hcopies.last _ _ h).1

namespace Relay

variable {turns : Turns} {start timeout elapsed : Nat} {up down : Flow}

/-- The times at which bytes moved in the relay of two flows, counted from its start. -/
def activity (turns : Turns) (start timeout : Nat) (up down : Flow) : List Nat :=
  let stop := ending turns start timeout up down
  let made := fun (part : Part) (flow : Flow) =>
    flow.activity.filter (· < turns.reach stop.time stop.part part)
  (made .upload up ++ made .download down).map (· - start)

/-- When bytes last moved in the relay of two flows, counted from its start; zero if none did. -/
def lastActivity (turns : Turns) (start timeout : Nat) (up down : Flow) : Nat :=
  (activity turns start timeout up down).max?.getD 0

theorem lastActivity_isGreatest (turns : Turns) (start timeout : Nat) (up down : Flow) :
    IsGreatest (insert 0 {time | time ∈ activity turns start timeout up down})
      (lastActivity turns start timeout up down) := by
  unfold lastActivity
  cases hmax : (activity turns start timeout up down).max? with
  | none =>
    rw [List.max?_eq_none_iff] at hmax
    refine ⟨.inl rfl, ?_⟩
    rintro time (rfl | htime)
    · exact Nat.le_refl 0
    · rw [Set.mem_ofPred_eq, hmax] at htime
      cases htime
  | some last =>
    obtain ⟨hlast, hgreatest⟩ := List.max?_eq_some_iff.mp hmax
    refine ⟨.inr hlast, ?_⟩
    rintro time (rfl | htime)
    · exact Nat.zero_le last
    · exact hgreatest time htime

/-- A part that has its turn before the check, or moves before the moment of the check, is seen. -/
theorem seenBy_of_lt_reach {check time : Nat} {part : Part} (hcheck : 0 < check)
    (h : time < turns.reach (start + check) .check part) :
    Stir.seenBy check ⟨time - start, turns.reach time .check part = time⟩ = true := by
  rw [Stir.seenBy_iff]
  rcases Nat.lt_trichotomy time (start + check) with hlt | rfl | hgt
  · exact .inl (by dsimp only; omega)
  · exact .inr ⟨by dsimp only; omega, by simp [Nat.ne_of_gt h]⟩
  · rcases Turns.reach_cases turns (start + check) .check part with hreach | hreach <;> omega

/-- The idle check sees all that was moved when it gives a pair up. -/
theorem exists_stir_of_activity {check last : Nat} (hcheck : 0 < check)
    (hending : ending turns start timeout up down = .ofIdle (start + check))
    (h : last ∈ activity turns start timeout up down) :
    ∃ stir ∈ allStirs turns start up down, stir.time = last ∧ stir.seenBy check = true := by
  simp only [activity, hending, RelayEnd.ofIdle, List.map_append, List.mem_append, List.mem_map,
    List.mem_filter, decide_eq_true_eq] at h
  rcases h with ⟨time, ⟨htime, hreach⟩, rfl⟩ | ⟨time, ⟨htime, hreach⟩, rfl⟩
  · exact ⟨_, mem_allStirs.mpr (.inl ⟨time, htime, rfl⟩), rfl, seenBy_of_lt_reach hcheck hreach⟩
  · exact ⟨_, mem_allStirs.mpr (.inr ⟨time, htime, rfl⟩), rfl, seenBy_of_lt_reach hcheck hreach⟩

/-- What is moved before the moment of the end is moved. -/
theorem mem_activity_of_stir {stir : Stir}
    (hfinished : (ending turns start timeout up down).time = start + elapsed)
    (hmem : stir ∈ allStirs turns start up down) (hbefore : stir.time < elapsed) :
    stir.time ∈ activity turns start timeout up down := by
  have hreach : ∀ (part : Part) (time : Nat), time - start < elapsed →
      time < turns.reach (ending turns start timeout up down).time
        (ending turns start timeout up down).part part := by
    intro part time htime
    rcases Turns.reach_cases turns (ending turns start timeout up down).time
      (ending turns start timeout up down).part part with hreach | hreach <;> omega
  simp only [activity, List.map_append, List.mem_append, List.mem_map, List.mem_filter,
    decide_eq_true_eq]
  rcases mem_allStirs.mp hmem with ⟨time, htime, rfl⟩ | ⟨time, htime, rfl⟩
  · exact .inl ⟨time, ⟨htime, hreach _ time hbefore⟩, rfl⟩
  · exact .inr ⟨time, ⟨htime, hreach _ time hbefore⟩, rfl⟩

/-- What can be said about a pair that is given up `elapsed` milliseconds after its start, when
bytes last moved at `last`. -/
structure GivenUp (timeout last elapsed : Nat) : Prop where
  positive : 0 < elapsed
  /-- The checks come once in a period: the timeout, but at least a second and at most thirty. -/
  onTick : max 1000 (min 30000 timeout) ∣ elapsed
  /-- The timeout in whole seconds, at least one of them, has passed but for less than a second. -/
  notEarly : last + 1000 * max 1 (timeout / 1000) < elapsed + 1000
  /-- The check comes within a period after the timeout. -/
  notLate : elapsed < last + 1000 * max 1 (timeout / 1000) + max 1000 (min 30000 timeout)

/-- A report of two flows that did not complete tells that they were idle. -/
theorem ending_of_not_completed {tally : Tally}
    (hresult : (report turns start timeout up down).result = .ok tally)
    (hidle : tally.completed = false) :
    ending turns start timeout up down = .ofIdle (idleTime turns start timeout up down) := by
  obtain ⟨-, -, hreason⟩ := report_ok hresult
  rw [hidle] at hreason
  rcases ending_cases turns start timeout up down with
    ⟨⟨time, result⟩, -, hstop⟩ | ⟨⟨time, result⟩, -, hstop⟩ | hstop
  · rw [hstop] at hreason
    cases result <;> cases hreason
  · rw [hstop] at hreason
    cases result <;> cases hreason
  · exact hstop

/-- **Two flows are over** in less than the timeout and a period after their last activity, and if
they are given up they were idle for the timeout. -/
theorem report_idle_bounds
    (hfinished : (report turns start timeout up down).finishedAt = start + elapsed) :
    elapsed < lastActivity turns start timeout up down + 1000 * idleSeconds timeout +
        idlePeriod timeout ∧
      ∀ tally, (report turns start timeout up down).result = .ok tally →
        tally.completed = false →
        GivenUp timeout (lastActivity turns start timeout up down) elapsed := by
  obtain ⟨check, hcheck, hfinds, hleast⟩ := idleTime_isLeast turns start timeout up down
  obtain ⟨hlast, hgreatest⟩ := lastActivity_isGreatest turns start timeout up down
  have hstop : (ending turns start timeout up down).time = start + elapsed := hfinished
  have hwatched : elapsed ≤ check := by
    have hle := ending_le_idleTime turns start timeout up down
    omega
  have hprompt := lt_of_findsIdle (idlePeriod_pos timeout) (idleSeconds_pos timeout)
    (fun other hother => Nat.le_trans hwatched (hleast hother))
    fun stir hmem hbefore => hgreatest (.inr (mem_activity_of_stir hstop hmem hbefore))
  refine ⟨hprompt, fun tally hresult hidle => ?_⟩
  -- the relay ended at the check
  have hgiven := ending_of_not_completed hresult hidle
  rw [hcheck] at hgiven
  obtain rfl : elapsed = check := by
    rw [hgiven] at hstop
    exact (Nat.add_left_cancel hstop).symm
  have hmoved := hlast.imp_right (exists_stir_of_activity hfinds.positive hgiven)
  exact ⟨hfinds.positive, hfinds.onTick, hfinds.notEarly hmoved, hprompt⟩

theorem run_start_le (turns : Turns) (capacity timeout start : Nat) (peek : Peek)
    (client outbound : Script) :
    start ≤ (run turns capacity timeout start peek client outbound).finishedAt := by
  simp only [run, report]
  rcases ending_cases turns start timeout (Flow.ofSource capacity start peek client outbound)
      (Flow.ofSource capacity start .transparent outbound client) with
    ⟨stop, hup, hstop⟩ | ⟨stop, hdown, hstop⟩ | hstop
  · rw [hstop]
    exact Flow.ofSource_start_le hup
  · rw [hstop]
    exact Flow.ofSource_start_le hdown
  · rw [hstop]
    exact Nat.le_trans (Nat.le_add_right start 1000) (idleTime_ge _ _ _ _ _)

/-- **Idle timeout bounds.** However a relay ends, it is over sooner than the timeout in whole
seconds and one period after bytes last moved in either direction. If it ends without completing, it
was given up: at a check, and only when no byte had moved for the timeout, give or take the second
that is lost by flooring. This holds whosever turn comes first at any moment: of what is there at the
moment of a check, the bytes that were moved before the turn of the check are counted. -/
theorem run_idle_bounds (turns : Turns) (capacity timeout start : Nat) (peek : Peek)
    (client outbound : Script) :
    ∃ elapsed last,
      (run turns capacity timeout start peek client outbound).finishedAt = start + elapsed ∧
      last = lastActivity turns start timeout (Flow.ofSource capacity start peek client outbound)
        (Flow.ofSource capacity start .transparent outbound client) ∧
      elapsed < last + 1000 * max 1 (timeout / 1000) + max 1000 (min 30000 timeout) ∧
      ∀ tally, (run turns capacity timeout start peek client outbound).result = .ok tally →
        tally.completed = false → GivenUp timeout last elapsed := by
  obtain ⟨elapsed, hfinished⟩ :=
    Nat.exists_eq_add_of_le (run_start_le turns capacity timeout start peek client outbound)
  obtain ⟨hprompt, hgivenUp⟩ := report_idle_bounds hfinished
  exact ⟨elapsed, _, hfinished, rfl, hprompt, hgivenUp⟩

/-- A client that says two things while the other side stays silent, under a timeout of 2.5 s. The
second one came in the third second, so the check after 5 s gives the pair up. -/
theorem run_idle_bounds_oneSided :
    let turns : Turns := fun _ => .check
    (run turns 8 2500 0 .transparent
        { events := [⟨0, .data [1]⟩, ⟨2300, .data [2, 3]⟩], afterwards := .silent }
        { afterwards := .silent }).result = .ok ⟨3, 0, false⟩ ∧
      GivenUp 2500 2300 5000 := by
  intro turns
  let client : Script :=
    { events := [⟨0, .data [1]⟩, ⟨2300, .data [2, 3]⟩], afterwards := .silent }
  let outbound : Script := { afterwards := .silent }
  have hidle : idleTime turns 0 2500 (Flow.ofSource 8 0 .transparent client outbound)
      (Flow.ofSource 8 0 .transparent outbound client) = 5000 := by
    rw [idleTime_of_pairwise 0 2500 (by decide)]
    decide
  have hresult : (run turns 8 2500 0 .transparent client outbound).result = .ok ⟨3, 0, false⟩ := by
    rw [run, report, ending, hidle]
    rfl
  have htime : (run turns 8 2500 0 .transparent client outbound).finishedAt = 5000 := by
    rw [run, report, ending, hidle]
    rfl
  obtain ⟨elapsed, last, hfinished, hlast, -, hgivenUp⟩ :=
    run_idle_bounds turns 8 2500 0 .transparent client outbound
  obtain rfl : 5000 = elapsed := by omega
  obtain rfl : last = 2300 := by
    rw [hlast, lastActivity, activity, ending, hidle]
    rfl
  exact ⟨hresult, hgivenUp _ hresult rfl⟩

end Relay

end SniffProxy
