import SniffProxy.Proofs.Stream.Ensuring
import SniffProxy.Proofs.Stream.Following

/-!
# Protocols on obliging streams

A stream obliges if no read and no flush of it fails and every write has something accepted. On such
a stream a session that follows a protocol runs to its end, however the bytes it takes are cut into
events and however its writes are cut by the stream: it takes just the bytes of the protocol, has
just those accepted that the protocol sends, and leaves what stands behind.

* `Script.Obliging` — the condition on the stream.
* `Act.taken`, `Act.sent` — the bytes of a protocol in each direction.
* `Session.Follows.run` — the run.
-/

namespace SniffProxy

open Act (sends takes)

/-! ## The bytes of a protocol -/

namespace Act

/-- The bytes that are taken. -/
def taken : List Act → Bytes
  | [] => []
  | take byte :: rest => byte :: taken rest
  | send _ :: rest => taken rest

/-- The bytes that are sent. -/
def sent : List Act → Bytes
  | [] => []
  | take _ :: rest => sent rest
  | send byte :: rest => byte :: sent rest

@[simp] theorem taken_append (front back : List Act) :
    taken (front ++ back) = taken front ++ taken back := by
  induction front with
  | nil => rfl
  | cons act front ih =>
    cases act with
    | send byte => exact ih
    | take byte => exact congrArg (byte :: ·) ih

@[simp] theorem sent_append (front back : List Act) :
    sent (front ++ back) = sent front ++ sent back := by
  induction front with
  | nil => rfl
  | cons act front ih =>
    cases act with
    | send byte => exact congrArg (byte :: ·) ih
    | take byte => exact ih

@[simp] theorem taken_takes (bytes : Bytes) : taken (takes bytes) = bytes := by
  induction bytes with
  | nil => rfl
  | cons b bytes ih => exact congrArg (b :: ·) ih

@[simp] theorem sent_sends (bytes : Bytes) : sent (sends bytes) = bytes := by
  induction bytes with
  | nil => rfl
  | cons b bytes ih => exact congrArg (b :: ·) ih

@[simp] theorem taken_sends (bytes : Bytes) : taken (sends bytes) = [] := by
  induction bytes with
  | nil => rfl
  | cons b bytes ih => exact ih

@[simp] theorem sent_takes (bytes : Bytes) : sent (takes bytes) = [] := by
  induction bytes with
  | nil => rfl
  | cons b bytes ih => exact ih

end Act

/-! ## Single requests -/

namespace Script

/-- None of the events is a failure. -/
def NoFailure (events : List ReadEvent) : Prop :=
  ∀ event ∈ events, ∀ error, event.delivery ≠ .failure error

/-- No read and no flush fails, and every write has something accepted. -/
structure Obliging (script : Script) : Prop where
  reads : NoFailure script.events
  perWrite : script.limits.perWrite ≠ some 0
  failAt : script.limits.failAt = none
  stallAt : script.limits.stallAt = none
  flushes : script.limits.flushFails = false

/-- A stream that delivers nothing and accepts everything. -/
theorem obliging_empty : Obliging {} := ⟨nofun, nofun, rfl, rfl, rfl⟩

/-- What is left after a read ends as before, and no failure is left if there was none. -/
theorem readEvents_keeps {afterwards : Afterwards} {size : Nat} :
    ∀ {events : List ReadEvent} {now time : Nat} {answer : Except IoError Bytes}
      {rest : List ReadEvent}, NoFailure events →
      readEvents afterwards size now events = .ready time answer rest →
      NoFailure rest ∧ endsAfter afterwards rest = endsAfter afterwards events := by
  intro events
  induction events with
  | nil =>
    intro now time answer rest hreads h
    cases afterwards with
    | closed =>
      cases h
      exact ⟨hreads, rfl⟩
    | silent => cases h
  | cons event events ih =>
    intro now time answer rest hreads h
    obtain ⟨hevent, hmore⟩ := List.forall_mem_cons.mp hreads
    obtain ⟨due, delivery⟩ := event
    cases delivery with
    | endOfStream =>
      cases h
      exact ⟨hreads, rfl⟩
    | failure error => exact absurd rfl (hevent error)
    | data bytes =>
      cases bytes with
      | nil => exact ih hmore h
      | cons b bytes =>
        simp only [readEvents] at h
        split at h
        · cases h
          exact ⟨List.forall_mem_cons.mpr ⟨(fun _ hfailure => by cases hfailure), hmore⟩, rfl⟩
        · cases h
          exact ⟨hmore, rfl⟩

/-- A read that is answered does not fail. -/
theorem readEvents_ok {afterwards : Afterwards} {size : Nat} :
    ∀ {events : List ReadEvent} {now time : Nat} {answer : Except IoError Bytes}
      {rest : List ReadEvent}, NoFailure events →
      readEvents afterwards size now events = .ready time answer rest →
      ∃ bytes, answer = .ok bytes := by
  intro events
  induction events with
  | nil =>
    intro now time answer rest _ h
    cases afterwards with
    | closed =>
      cases h
      exact ⟨[], rfl⟩
    | silent => cases h
  | cons event events ih =>
    intro now time answer rest hreads h
    obtain ⟨hevent, hmore⟩ := List.forall_mem_cons.mp hreads
    obtain ⟨due, delivery⟩ := event
    cases delivery with
    | endOfStream =>
      cases h
      exact ⟨[], rfl⟩
    | failure error => exact absurd rfl (hevent error)
    | data bytes =>
      cases bytes with
      | nil => exact ih hmore h
      | cons b bytes =>
        simp only [readEvents] at h
        split at h
        · cases h
          exact ⟨_, rfl⟩
        · cases h
          exact ⟨_, rfl⟩

/-- A read of events with something in them is answered with some of it. -/
theorem readEvents_obliging {afterwards : Afterwards} {size : Nat} (hsize : 0 < size) :
    ∀ {events : List ReadEvent} (now : Nat), NoFailure events → contentOf events ≠ [] →
      ∃ time front rest, readEvents afterwards size now events = .ready time (.ok front) rest ∧
        front ≠ [] := by
  intro events
  induction events with
  | nil =>
    intro now _ hcontent
    exact absurd rfl hcontent
  | cons event events ih =>
    intro now hreads hcontent
    obtain ⟨hevent, hmore⟩ := List.forall_mem_cons.mp hreads
    obtain ⟨due, delivery⟩ := event
    cases delivery with
    | endOfStream => exact absurd rfl hcontent
    | failure error => exact absurd rfl (hevent error)
    | data bytes =>
      cases bytes with
      | nil => exact ih (max now due) hmore hcontent
      | cons b bytes =>
        simp only [readEvents]
        split
        · refine ⟨_, _, _, rfl, ?_⟩
          simp only [ne_eq, List.take_eq_nil_iff, List.cons_ne_nil, or_false]
          omega
        · exact ⟨_, _, _, rfl, List.cons_ne_nil _ _⟩

/-- A read leaves an obliging stream obliging, and ending as before. -/
theorem Obliging.read_keeps {script : Script} (h : script.Obliging) {size now time : Nat}
    {answer : Except IoError Bytes} {events : List ReadEvent}
    (hread : script.read size now = .ready time answer events) :
    Obliging { script with events } ∧ ends { script with events } = script.ends := by
  unfold Script.read at hread
  split at hread
  · cases hread
    exact ⟨h, rfl⟩
  · obtain ⟨hreads, hends⟩ := readEvents_keeps h.reads hread
    exact ⟨{ h with reads := hreads }, hends⟩

/-- A read gets the next bytes, if there are any. -/
theorem Obliging.read {script : Script} (h : script.Obliging) {size : Nat} (hsize : 0 < size)
    (hcontent : script.content ≠ []) (now : Nat) :
    ∃ time front events, script.read size now = .ready time (.ok front) events ∧ front ≠ [] ∧
      front.length ≤ size ∧ script.content = front ++ contentOf events ∧
      Obliging { script with events } := by
  obtain ⟨time, front, events, hread, hfront⟩ := readEvents_obliging hsize now h.reads hcontent
  have hanswer : script.read size now = .ready time (.ok front) events := by
    rw [Script.read, if_neg (Nat.ne_of_gt hsize)]
    exact hread
  obtain ⟨hfront', hlength, _⟩ := read_delivers hanswer
  exact ⟨time, front, events, hanswer, hfront, hlength, hfront', (h.read_keeps hanswer).1⟩

/-- A write is answered with what the stream accepts at once. -/
theorem Obliging.write_eq {script : Script} (h : script.Obliging) (data : Bytes) :
    script.write data = .ready (.ok (script.acceptable data.length))
      { script with
        accepted := script.accepted + script.acceptable data.length
        writtenRev := data.take (script.acceptable data.length) :: script.writtenRev } := by
  rw [Script.write, h.failAt, h.stallAt]
  rfl

/-- A write has a piece from the front accepted. -/
theorem Obliging.write {script : Script} (h : script.Obliging) {data : Bytes} (hdata : data ≠ []) :
    ∃ front back after, data = front ++ back ∧ front ≠ [] ∧
      script.write data = .ready (.ok front.length) after ∧ after.content = script.content ∧
      after.received = script.received ++ front ∧ after.Obliging := by
  have hcount : script.acceptable data.length = capAt data.length script.limits.perWrite := by
    simp only [acceptable, h.failAt, h.stallAt, Option.map_none, capAt]
  have hpos : 0 < script.acceptable data.length := by
    have hdata' := List.length_pos_iff.mpr hdata
    have hlimit := h.perWrite
    rw [hcount]
    cases hper : script.limits.perWrite with
    | none => exact hdata'
    | some limit =>
      have hne : limit ≠ 0 := by
        rintro rfl
        exact hlimit hper
      show 0 < min data.length limit
      omega
  have hfront : (data.take (script.acceptable data.length)).length =
      script.acceptable data.length :=
    List.length_take_of_le (script.acceptable_le data.length)
  have hwrite := h.write_eq data
  obtain ⟨given, ⟨_, rfl⟩, hcontent, hreceived⟩ := write_accepts hwrite
  refine ⟨_, data.drop (script.acceptable data.length), _, (List.take_append_drop _ _).symm, ?_, ?_,
    hcontent, hreceived, ⟨h.reads, h.perWrite, h.failAt, h.stallAt, h.flushes⟩⟩
  · rw [← List.length_pos_iff, hfront]
    exact hpos
  · rw [hfront]
    exact hwrite

/-- A flush succeeds. -/
theorem Obliging.flush {script : Script} (h : script.Obliging) : script.flush = .ok () := by
  rw [Script.flush, h.flushes]
  rfl

/-- Bytes in front that arrive as one event change nothing. -/
theorem Obliging.holding {script : Script} (h : script.Obliging) (due : Nat) (bytes : Bytes) :
    (script.holding due bytes).Obliging := by
  by_cases hbytes : bytes = []
  · rw [Script.holding, if_pos hbytes]
    exact h
  · rw [holding_of_ne hbytes]
    refine { h with reads := fun event hevent error => ?_ }
    obtain rfl | hevent := List.mem_cons.mp hevent
    · intro hfailure
      cases hfailure
    · exact h.reads event hevent error

end Script

/-! ## Runs -/

/-- **A session that follows a protocol runs to its end** on every obliging stream that begins with
the bytes it is to take. -/
theorem Session.Follows.run {α : Type} {value : α} {rest : Bytes} :
    ∀ {s : Session α} {acts : List Act}, s.Follows acts value →
      ∀ {script : Script} (now : Nat), script.Obliging → script.content = Act.taken acts ++ rest →
        ∃ time after log, s.run none now script = .finished value time after log ∧
          after.content = rest ∧ after.received = script.received ++ Act.sent acts ∧
          after.Obliging := by
  intro s
  induction s with
  | done result =>
    rintro acts ⟨rfl, rfl⟩ script now hscript hcontent
    exact ⟨now, script, [], rfl, hcontent, (List.append_nil _).symm, hscript⟩
  | read size next ih =>
    rintro acts ⟨hsize, bytes, more, rfl, hlength, hnext⟩ script now hscript hcontent
    rw [Act.taken_append, Act.taken_takes, List.append_assoc] at hcontent
    have hpos : script.content ≠ [] := by
      rw [hcontent]
      intro hnil
      rw [(List.append_eq_nil_iff.mp hnil).1, List.length_nil] at hlength
      omega
    obtain ⟨time, front, events, hread, hfront, hle, hcut, hafter⟩ := hscript.read hsize hpos now
    -- the read got a piece of the bytes that are to be taken
    have hpiece : front <+: bytes :=
      List.prefix_of_prefix_length_le ⟨_, hcut.symm⟩ ⟨_, hcontent.symm⟩ (hlength ▸ hle)
    obtain ⟨back, rfl⟩ := hpiece
    have hleft : Script.contentOf events = Act.taken (takes back ++ more) ++ rest := by
      rw [hcut, List.append_assoc, List.append_cancel_left_eq] at hcontent
      rw [hcontent, Act.taken_append, Act.taken_takes, List.append_assoc]
    obtain ⟨last, after, log, hrun, hrest, hgiven, hlast⟩ :=
      ih _ (hnext front back rfl hfront) time hafter hleft
    refine ⟨last, after, log, ?_, hrest, ?_, hlast⟩
    · rw [Session.run, hread]
      exact hrun
    · simp only [hgiven, Act.sent_append, Act.sent_takes]
      rfl
  | write data next ih =>
    rintro acts ⟨hdata, more, rfl, hnext⟩ script now hscript hcontent
    rw [Act.taken_append, Act.taken_sends, List.nil_append] at hcontent
    obtain ⟨front, back, after, hcut, hfront, hwrite, hkept, hreceived, hafter⟩ :=
      hscript.write hdata
    have hsame : after.content = Act.taken (sends back ++ more) ++ rest := by
      rw [hkept, hcontent, Act.taken_append, Act.taken_sends, List.nil_append]
    obtain ⟨time, last, log, hrun, hrest, hgiven, hlast⟩ :=
      ih _ (hnext front back hcut hfront) now hafter hsame
    refine ⟨time, last, log, ?_, hrest, ?_, hlast⟩
    · rw [Session.run, hwrite]
      exact hrun
    · simp only [hgiven, hreceived, hcut, Act.sent_append, Act.sent_sends, List.append_assoc]
  | flush next ih =>
    intro acts h script now hscript hcontent
    rw [Session.run, hscript.flush]
    exact ih _ h now hscript hcontent
  | report event next ih =>
    intro acts h script now hscript hcontent
    obtain ⟨time, last, log, hrun, hlast⟩ := ih h now hscript hcontent
    refine ⟨time, last, event :: log, ?_, hlast⟩
    rw [Session.run, hrun]
    rfl

end SniffProxy
