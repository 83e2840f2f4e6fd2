import SniffProxy.Stream.Relay
import SniffProxy.Proofs.Stream.Content

/-!
# What one direction of a relay keeps

A direction takes bytes into a buffer and gives them to its sink. Whatever the source delivers and
however the sink accepts it, nothing leaves the buffer that was not taken before, in the same order,
and the buffer never holds more than its capacity.

* `Buffered` — the moves of such a buffer; `Buffered.conserves` is its law.
* `Passes` — what handing over some bytes does; `give_passes` and `passBytes_passes`.
* `Flow.Copies` — what a whole flow keeps; `Flow.ofSource_copies`.
-/

namespace SniffProxy

/-! ## The buffer -/

/-- The moves of a buffer that holds `held` before them and `left` after them: it is filled when it
is empty, up to its capacity, and gives from its front. -/
inductive Buffered (capacity : Nat) : (held : Bytes) → List Move → (left : Bytes) → Prop where
  | idle {held : Bytes} : Buffered capacity held [] held
  | took {piece left : Bytes} {moves : List Move} (hfits : piece.length ≤ capacity)
      (hrest : Buffered capacity piece moves left) :
      Buffered capacity [] (.took piece :: moves) left
  | gave {piece held left : Bytes} {moves : List Move}
      (hrest : Buffered capacity held moves left) :
      Buffered capacity (piece ++ held) (.gave piece :: moves) left

namespace Move

@[simp] theorem taken_nil : taken [] = [] := rfl

@[simp] theorem taken_took (bytes : Bytes) (moves : List Move) :
    taken (.took bytes :: moves) = bytes :: taken moves := rfl

@[simp] theorem taken_gave (bytes : Bytes) (moves : List Move) :
    taken (.gave bytes :: moves) = taken moves := rfl

@[simp] theorem given_nil : given [] = [] := rfl

@[simp] theorem given_took (bytes : Bytes) (moves : List Move) :
    given (.took bytes :: moves) = given moves := rfl

@[simp] theorem given_gave (bytes : Bytes) (moves : List Move) :
    given (.gave bytes :: moves) = bytes :: given moves := rfl

@[simp] theorem taken_append (moves more : List Move) :
    taken (moves ++ more) = taken moves ++ taken more :=
  List.filterMap_append

@[simp] theorem given_append (moves more : List Move) :
    given (moves ++ more) = given moves ++ given more :=
  List.filterMap_append

end Move

namespace Buffered

variable {capacity : Nat}

theorem append {held middle left : Bytes} {moves more : List Move}
    (h : Buffered capacity held moves middle) (hmore : Buffered capacity middle more left) :
    Buffered capacity held (moves ++ more) left := by
  induction h with
  | idle => exact hmore
  | took hfits _ ih => exact .took hfits (ih hmore)
  | gave _ ih => exact .gave (ih hmore)

/-- A buffer may be looked at between any two moves. -/
theorem of_isPrefix {held left : Bytes} {moves first : List Move}
    (h : Buffered capacity held moves left) (hfirst : first <+: moves) :
    ∃ middle, Buffered capacity held first middle := by
  induction h generalizing first with
  | idle =>
    rw [List.prefix_nil.mp hfirst]
    exact ⟨_, .idle⟩
  | took hfits _ ih =>
    cases first with
    | nil => exact ⟨_, .idle⟩
    | cons move first =>
      obtain ⟨rfl, htail⟩ := List.cons_prefix_cons.mp hfirst
      obtain ⟨middle, hmiddle⟩ := ih htail
      exact ⟨middle, .took hfits hmiddle⟩
  | gave _ ih =>
    cases first with
    | nil => exact ⟨_, .idle⟩
    | cons move first =>
      obtain ⟨rfl, htail⟩ := List.cons_prefix_cons.mp hfirst
      obtain ⟨middle, hmiddle⟩ := ih htail
      exact ⟨middle, .gave hmiddle⟩

/-- **Conservation**: what was held and taken is what was given and is left, in this order. -/
theorem conserves {held left : Bytes} {moves : List Move}
    (h : Buffered capacity held moves left) :
    held ++ (Move.taken moves).flatten = (Move.given moves).flatten ++ left := by
  induction h with
  | idle => simp
  | took _ _ ih => simpa using ih
  | gave _ ih => simpa using ih

/-- The capacity is never exceeded. -/
theorem left_le {held left : Bytes} {moves : List Move} (h : Buffered capacity held moves left)
    (hheld : held.length ≤ capacity) : left.length ≤ capacity := by
  induction h with
  | idle => exact hheld
  | took hfits _ ih => exact ih hfits
  | gave _ ih =>
    rw [List.length_append] at hheld
    exact ih (by omega)

end Buffered

namespace Flow

/-! ## Handing over -/

/-- Moves that hand over what the buffer holds, then `fresh` bytes, all at one time. They may stop
at any point, unless they end well. -/
structure Passes (capacity time : Nat) (held fresh : Bytes)
    (result : List (Nat × Move) × Except Halt Script) : Prop where
  buffered : ∃ left, Buffered capacity held (result.1.map Prod.snd) left ∧
    ∀ sink, result.2 = .ok sink → left = []
  taken : (Move.taken (result.1.map Prod.snd)).flatten <+: fresh
  complete : ∀ sink, result.2 = .ok sink →
    (Move.taken (result.1.map Prod.snd)).flatten = fresh
  at_once : ∀ move ∈ result.1, move.1 = time

variable {capacity time : Nat}

/-- A stop before the first move. -/
theorem passes_halt (held fresh : Bytes) (halt : Halt) :
    Passes capacity time held fresh ([], .error halt) where
  buffered := ⟨held, .idle, fun _ h => by cases h⟩
  taken := List.nil_prefix
  complete _ h := by cases h
  at_once _ hmem := by cases hmem

/-- Nothing to do. -/
theorem passes_nil (sink : Script) : Passes capacity time [] [] ([], .ok sink) where
  buffered := ⟨[], .idle, fun _ _ => rfl⟩
  taken := List.nil_prefix
  complete _ _ := rfl
  at_once _ hmem := by cases hmem

/-- One more write in front. -/
theorem Passes.gave {held fresh : Bytes} {result : List (Nat × Move) × Except Halt Script}
    (h : Passes capacity time held fresh result) (piece : Bytes) :
    Passes capacity time (piece ++ held) fresh ((time, .gave piece) :: result.1, result.2) := by
  obtain ⟨⟨left, hleft, hok⟩, htaken, hcomplete, honce⟩ := h
  exact ⟨⟨left, .gave hleft, hok⟩, htaken, hcomplete, List.forall_mem_cons.mpr ⟨rfl, honce⟩⟩

/-- **Handing over what the buffer holds** takes nothing new, and leaves nothing if it ends well. -/
theorem give_passes :
    ∀ {fuel : Nat} {sink : Script} {data : Bytes}, data.length ≤ fuel →
      Passes capacity time data [] (give time fuel sink data) := by
  intro fuel
  induction fuel with
  | zero =>
    intro sink data hfuel
    cases data with
    | nil => exact passes_nil sink
    | cons b data => simp at hfuel
  | succ fuel ih =>
    intro sink data hfuel
    cases data with
    | nil => exact passes_nil sink
    | cons b data =>
      simp only [give]
      split
      · exact passes_halt _ _ _
      · exact passes_halt _ _ _
      · exact (passes_halt (b :: data) [] (.failed .writeZero)).gave []
      · rename_i count sink' hzero _
        -- a write that goes on took at least one byte, so the fuel still suffices
        have hcount : 0 < count := Nat.pos_of_ne_zero fun h => hzero (by rw [h])
        have hrest : ((b :: data).drop count).length ≤ fuel := by
          rw [List.length_drop]
          omega
        have hgave := (@ih sink' _ hrest).gave ((b :: data).take count)
        rwa [List.take_append_drop] at hgave

/-- The pieces are the bytes, and each of them fits. -/
theorem pieces_spec (hcapacity : 0 < capacity) :
    ∀ {fuel : Nat} {data : Bytes}, data.length ≤ fuel →
      (pieces capacity fuel data).flatten = data ∧
        ∀ piece ∈ pieces capacity fuel data, piece.length ≤ capacity := by
  intro fuel
  induction fuel with
  | zero =>
    intro data hfuel
    cases data with
    | nil => exact ⟨rfl, fun _ hmem => by cases hmem⟩
    | cons b data => simp at hfuel
  | succ fuel ih =>
    intro data hfuel
    cases data with
    | nil => exact ⟨rfl, fun _ hmem => by cases hmem⟩
    | cons b data =>
      have hrest : ((b :: data).drop capacity).length ≤ fuel := by
        rw [List.length_drop]
        omega
      obtain ⟨hflatten, hfits⟩ := ih hrest
      refine ⟨?_, ?_⟩
      · simp only [pieces, List.flatten_cons, hflatten, List.take_append_drop]
      · intro piece hmem
        rcases List.mem_cons.mp hmem with rfl | hmem
        · exact List.length_take_le _ _
        · exact hfits piece hmem

/-- **Taking pieces through the empty buffer** takes them in order, and all of them if it ends
well. -/
theorem pass_passes :
    ∀ {pieces : List Bytes} (sink : Script), (∀ piece ∈ pieces, piece.length ≤ capacity) →
      Passes capacity time [] pieces.flatten (pass time sink pieces) := by
  intro pieces
  induction pieces with
  | nil =>
    intro sink _
    exact passes_nil sink
  | cons piece rest ih =>
    intro sink hfits
    have hpiece : piece.length ≤ capacity := hfits piece List.mem_cons_self
    have hgive : Passes capacity time piece [] (give time piece.length sink piece) :=
      give_passes (Nat.le_refl _)
    simp only [pass]
    split
    · rename_i moves halt heq
      rw [heq] at hgive
      obtain ⟨⟨left, hleft, _⟩, htaken, _, honce⟩ := hgive
      have htaken := List.prefix_nil.mp htaken
      refine ⟨⟨left, .took hpiece hleft, fun _ h => ?_⟩, ?_, fun _ h => ?_, ?_⟩
      · cases h
      · simp only [List.map_cons, Move.taken_took, List.flatten_cons, htaken, List.append_nil]
        exact List.prefix_append _ _
      · cases h
      · exact List.forall_mem_cons.mpr ⟨rfl, honce⟩
    · rename_i moves sink' heq
      rw [heq] at hgive
      obtain ⟨⟨middle, hmiddle, hempty⟩, htaken, _, honce⟩ := hgive
      obtain ⟨⟨left, hleft, hok⟩, htaken', hcomplete', honce'⟩ :=
        ih sink' fun p hmem => hfits p (List.mem_cons_of_mem _ hmem)
      have htaken := List.prefix_nil.mp htaken
      rw [hempty sink' rfl] at hmiddle
      refine ⟨⟨left, ?_, hok⟩, ?_, ?_, ?_⟩
      · rw [List.map_cons, List.map_append]
        exact .took hpiece (hmiddle.append hleft)
      · simpa [htaken] using htaken'
      · intro sink hsink
        simpa [htaken] using hcomplete' sink hsink
      · exact List.forall_mem_cons.mpr ⟨rfl, List.forall_mem_append.mpr ⟨honce, honce'⟩⟩

theorem passBytes_passes (hcapacity : 0 < capacity) (time : Nat) (sink : Script) (bytes : Bytes) :
    Passes capacity time [] bytes (passBytes capacity time sink bytes) := by
  obtain ⟨hflatten, hfits⟩ := pieces_spec hcapacity (Nat.le_refl bytes.length)
  have hpass : Passes capacity time [] (pieces capacity bytes.length bytes).flatten
      (passBytes capacity time sink bytes) := pass_passes sink hfits
  rwa [hflatten] at hpass

/-- What was handed over through the empty buffer to its end is all that was given. -/
theorem Passes.given_eq {fresh : Bytes} {moves : List (Nat × Move)} {sink : Script}
    (h : Passes capacity time [] fresh (moves, .ok sink)) :
    (Move.given (moves.map Prod.snd)).flatten = fresh := by
  obtain ⟨⟨left, hleft, hempty⟩, _, hcomplete, _⟩ := h
  have hconserves := hleft.conserves
  rw [hempty sink rfl, List.nil_append, List.append_nil] at hconserves
  rw [← hconserves]
  exact hcomplete sink rfl

/-! ## A whole flow -/

/-- What a flow keeps that begins at `start` and copies `data`; `ends` says whether its source comes
to an end. -/
structure Copies (capacity start : Nat) (data : Bytes) (ends : Bool) (flow : Flow) : Prop where
  buffered : ∃ left, Buffered capacity [] (flow.moves.map Prod.snd) left
  taken : (Move.taken (flow.moves.map Prod.snd)).flatten <+: data
  /-- A flow ends well only at the end of its source, and when everything was handed over. -/
  complete : ∀ time, flow.ending = some (time, .ok ()) →
    ends = true ∧ (Move.given (flow.moves.map Prod.snd)).flatten = data
  ordered : flow.moves.Pairwise fun move next => move.1 ≤ next.1
  begins : ∀ move ∈ flow.moves, start ≤ move.1
  /-- The end is the last thing that happens. -/
  last : ∀ time result, flow.ending = some (time, result) →
    start ≤ time ∧ ∀ move ∈ flow.moves, move.1 ≤ time

/-- A flow that stops or waits for ever before its first move. -/
theorem copies_nothing {start : Nat} {data : Bytes} {ends : Bool}
    {ending : Option (Nat × Except IoError Unit)} (hok : ∀ time, ending ≠ some (time, .ok ()))
    (hlate : ∀ time result, ending = some (time, result) → start ≤ time) :
    Copies capacity start data ends ⟨[], ending⟩ where
  buffered := ⟨[], .idle⟩
  taken := List.nil_prefix
  complete time h := absurd h (hok time)
  ordered := List.Pairwise.nil
  begins _ hmem := by cases hmem
  last time result h := ⟨hlate time result h, fun _ hmem => by cases hmem⟩

/-- A flow that finds the end of its source. -/
theorem copies_end {start time : Nat} (hlate : start ≤ time) (result : Except IoError Unit) :
    Copies capacity start [] true ⟨[], some (time, result)⟩ where
  buffered := ⟨[], .idle⟩
  taken := List.nil_prefix
  complete _ _ := ⟨rfl, rfl⟩
  ordered := List.Pairwise.nil
  begins _ hmem := by cases hmem
  last _ _ h := by
    cases h
    exact ⟨hlate, fun _ hmem => by cases hmem⟩

/-- A flow that fails. -/
theorem copies_failure {start time : Nat} {data : Bytes} {ends : Bool} (hlate : start ≤ time)
    (error : IoError) : Copies capacity start data ends ⟨[], some (time, .error error)⟩ :=
  copies_nothing (fun _ h => by cases h) fun _ _ h => by cases h; exact hlate

theorem copies_ofHalt {data : Bytes} {ends : Bool} (halt : Halt) :
    Copies capacity time data ends (ofHalt time halt) := by
  cases halt with
  | failed error => exact copies_failure (Nat.le_refl time) error
  | stalled => exact copies_nothing (fun _ h => by cases h) fun _ _ h => by cases h

/-- A flow that copies from a time on does so from any time before. -/
theorem Copies.earlier {start : Nat} {data : Bytes} {ends : Bool} {flow : Flow}
    (h : Copies capacity time data ends flow) (hle : start ≤ time) :
    Copies capacity start data ends flow where
  buffered := h.buffered
  taken := h.taken
  complete := h.complete
  ordered := h.ordered
  begins move hmem := Nat.le_trans hle (h.begins move hmem)
  last t result hend := ⟨Nat.le_trans hle (h.last t result hend).1, (h.last t result hend).2⟩

theorem ordered_append {moves more : List (Nat × Move)} (honce : ∀ move ∈ moves, move.1 = time)
    (hbegins : ∀ move ∈ more, time ≤ move.1)
    (hordered : more.Pairwise fun move next => move.1 ≤ next.1) :
    (moves ++ more).Pairwise fun move next => move.1 ≤ next.1 := by
  rw [List.pairwise_append]
  refine ⟨?_, hordered, fun move hmem next hnext => ?_⟩
  · refine List.pairwise_of_forall_mem_list fun move hmem next hnext => ?_
    exact Nat.le_of_eq ((honce move hmem).trans (honce next hnext).symm)
  · rw [honce move hmem]
    exact hbegins next hnext

/-- **Bytes in front**: a flow goes on after bytes that were handed over. -/
theorem Copies.after {bytes data : Bytes} {ends : Bool} {flow : Flow} {sink : Script}
    {moves : List (Nat × Move)} (h : Copies capacity time data ends flow)
    (hpasses : Passes capacity time [] bytes (moves, .ok sink)) :
    Copies capacity time (bytes ++ data) ends (flow.after moves) := by
  have hgiven := hpasses.given_eq
  obtain ⟨⟨middle, hmiddle, hempty⟩, _, htaken, honce⟩ := hpasses
  obtain ⟨left, hleft⟩ := h.buffered
  have hmiddle' : Buffered capacity [] (moves.map Prod.snd) [] := by
    rwa [hempty sink rfl] at hmiddle
  have htaken' : (Move.taken (moves.map Prod.snd)).flatten = bytes := htaken sink rfl
  constructor
  case buffered =>
    refine ⟨left, ?_⟩
    simp only [Flow.after, List.map_append]
    exact hmiddle'.append hleft
  case taken =>
    simp only [Flow.after, List.map_append, Move.taken_append, List.flatten_append, htaken']
    exact (List.prefix_append_right_inj bytes).mpr h.taken
  case complete =>
    intro t hend
    obtain ⟨hends, hdata⟩ := h.complete t hend
    refine ⟨hends, ?_⟩
    simp only [Flow.after, List.map_append, Move.given_append, List.flatten_append]
    rw [hgiven, hdata]
  case ordered => exact ordered_append honce h.begins h.ordered
  case begins =>
    intro move hmem
    rcases List.mem_append.mp hmem with hmem | hmem
    · exact Nat.le_of_eq (honce move hmem).symm
    · exact h.begins move hmem
  case last =>
    intro t result hend
    obtain ⟨hlate, hlast⟩ := h.last t result hend
    refine ⟨hlate, fun move hmem => ?_⟩
    rcases List.mem_append.mp hmem with hmem | hmem
    · rw [honce move hmem]
      exact hlate
    · exact hlast move hmem

/-- A flow that halts within some bytes copies them and whatever would have come. -/
theorem copies_halted {bytes data : Bytes} {ends : Bool} {halt : Halt}
    {moves : List (Nat × Move)} (hpasses : Passes capacity time [] bytes (moves, .error halt)) :
    Copies capacity time (bytes ++ data) ends (after moves (ofHalt time halt)) := by
  obtain ⟨⟨left, hleft, _⟩, htaken, _, honce⟩ := hpasses
  have hhalt : Copies capacity time data ends (ofHalt time halt) := copies_ofHalt halt
  have hmoves : (ofHalt time halt).moves = [] := by cases halt <;> rfl
  have hnotok : ∀ t, (ofHalt time halt).ending ≠ some (t, .ok ()) := by
    intro t h
    cases halt <;> cases h
  constructor
  case buffered =>
    refine ⟨left, ?_⟩
    simpa [Flow.after, hmoves] using hleft
  case taken =>
    simp only [Flow.after, hmoves, List.append_nil]
    exact htaken.trans (List.prefix_append _ _)
  case complete =>
    intro t hend
    exact absurd hend (hnotok t)
  case ordered => exact ordered_append honce hhalt.begins hhalt.ordered
  case begins =>
    intro move hmem
    simp only [Flow.after, hmoves, List.append_nil] at hmem
    exact Nat.le_of_eq (honce move hmem).symm
  case last =>
    intro t result hend
    have hlate := (hhalt.last t result hend).1
    refine ⟨hlate, fun move hmem => ?_⟩
    simp only [Flow.after, hmoves, List.append_nil] at hmem
    rw [honce move hmem]
    exact hlate

theorem endWaiting_spec {unflushed : Bool} {now : Nat} {sink : Script}
    {ending : Nat × Except IoError Unit} (h : endWaiting unflushed now sink = some ending) :
    ∃ error, ending = (now, .error error) := by
  unfold endWaiting at h
  split at h
  · split at h
    · cases h
    · cases h
      exact ⟨_, rfl⟩
  · cases h

/-- **Copying the events of a source**, whatever the sink does. -/
theorem ofEvents_copies (hcapacity : 0 < capacity) {afterwards : Afterwards} :
    ∀ {events : List ReadEvent} {unflushed : Bool} {now : Nat} {sink : Script},
      Copies capacity now (Script.contentOf events) (Script.endsAfter afterwards events)
        (ofEvents capacity afterwards unflushed now sink events) := by
  intro events
  induction events with
  | nil =>
    intro unflushed now sink
    cases afterwards with
    | closed => exact copies_end (Nat.le_refl now) _
    | silent =>
      simp only [ofEvents]
      refine copies_nothing (fun t h => ?_) fun t result h => ?_
      · obtain ⟨error, herror⟩ := endWaiting_spec h
        cases herror
      · obtain ⟨error, herror⟩ := endWaiting_spec h
        cases herror
        exact Nat.le_refl now
  | cons event rest ih =>
    intro unflushed now sink
    obtain ⟨due, delivery⟩ := event
    have hlate : now ≤ max now due := Nat.le_max_left _ _
    simp only [ofEvents]
    split
    · -- a flush fails while the flow waits
      rename_i ending hwait
      obtain ⟨error, rfl⟩ : ∃ error, ending = (now, .error error) := by
        split at hwait
        · exact endWaiting_spec hwait
        · cases hwait
      exact copies_failure (Nat.le_refl now) error
    · cases delivery with
      | endOfStream => exact copies_end hlate _
      | failure error =>
        cases error with
        | interrupted => exact ih.earlier hlate
        | _ => exact copies_failure hlate _
      | data bytes =>
        have hpasses := passBytes_passes hcapacity (max now due) sink bytes
        dsimp only
        split
        · rename_i moves sink' heq
          rw [heq] at hpasses
          exact (ih.after hpasses).earlier hlate
        · rename_i moves halt heq
          rw [heq] at hpasses
          exact (copies_halted hpasses).earlier hlate

/-- **Copying a source behind a peek**: first what the peek replays, then the stream. -/
theorem ofSource_copies (hcapacity : 0 < capacity) (start : Nat) (peek : Peek)
    (source sink : Script) :
    Copies capacity start ((if peek.replaying then peek.buffer else []) ++ source.content)
      source.ends (ofSource capacity start peek source sink) := by
  have hpasses := passBytes_passes hcapacity start sink
    (if peek.replaying then peek.buffer else [])
  simp only [ofSource, if_neg (Nat.ne_of_gt hcapacity)]
  rcases heq : passBytes capacity start sink (if peek.replaying then peek.buffer else [])
    with ⟨moves, halt | sink'⟩
  · rw [heq] at hpasses
    exact copies_halted hpasses
  · rw [heq] at hpasses
    exact (ofEvents_copies hcapacity).after hpasses

end Flow

end SniffProxy
