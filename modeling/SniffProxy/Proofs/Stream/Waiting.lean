import SniffProxy.Proofs.Stream.Obliging

/-!
# Runs that wait for ever

On an obliging stream a run can wait for ever for one reason only: the peer stays silent and has
sent too little. A peer that ends its stream is always enough.

* `Session.run_finishes` — a run on a stream that ends.
* `Handshake.WaitsOnly` — what was sent to a handshake that waits for ever.
* `Handshake.Blocks` — what has to be sent to make it wait for ever.
-/

namespace SniffProxy

/-! ## Streams -/

namespace Script

/-- A read of a stream that ends is answered. -/
theorem readEvents_answers {afterwards : Afterwards} {size : Nat} :
    ∀ {events : List ReadEvent} {now : Nat}, NoFailure events →
      endsAfter afterwards events = true →
      ∃ time answer rest, readEvents afterwards size now events = .ready time answer rest := by
  intro events
  induction events with
  | nil =>
    intro now _ hends
    cases afterwards with
    | closed => exact ⟨_, _, _, rfl⟩
    | silent => cases hends
  | cons event events ih =>
    intro now hreads hends
    obtain ⟨hevent, hmore⟩ := List.forall_mem_cons.mp hreads
    obtain ⟨due, delivery⟩ := event
    cases delivery with
    | endOfStream => exact ⟨_, _, _, rfl⟩
    | failure error => exact ⟨_, _, _, rfl⟩
    | data bytes =>
      cases bytes with
      | nil => exact ih hmore hends
      | cons b bytes =>
        simp only [readEvents]
        split
        · exact ⟨_, _, _, rfl⟩
        · exact ⟨_, _, _, rfl⟩

/-- A read is never answered on a silent stream only. -/
theorem not_endsAfter_of_never {afterwards : Afterwards} {size now : Nat} {events : List ReadEvent}
    (hreads : NoFailure events) (h : readEvents afterwards size now events = .never) :
    endsAfter afterwards events = false := by
  cases hends : endsAfter afterwards events with
  | false => rfl
  | true =>
    obtain ⟨time, answer, rest, hready⟩ := @readEvents_answers _ size _ now hreads hends
    rw [h] at hready
    cases hready

/-- A read that is never answered has found nothing. -/
theorem contentOf_of_never {afterwards : Afterwards} {size : Nat} :
    ∀ {events : List ReadEvent} {now : Nat},
      readEvents afterwards size now events = .never → contentOf events = [] := by
  intro events
  induction events with
  | nil =>
    intro now _
    rfl
  | cons event events ih =>
    intro now h
    obtain ⟨due, delivery⟩ := event
    cases delivery with
    | endOfStream => cases h
    | failure error => cases h
    | data bytes =>
      cases bytes with
      | nil => exact ih h
      | cons b bytes =>
        simp only [readEvents] at h
        split at h <;> cases h

/-- A read of a silent stream without anything to come is never answered. -/
theorem never_of_contentOf {afterwards : Afterwards} {size : Nat} :
    ∀ {events : List ReadEvent} {now : Nat}, NoFailure events →
      endsAfter afterwards events = false → contentOf events = [] →
      readEvents afterwards size now events = .never := by
  intro events
  induction events with
  | nil =>
    intro now _ hends _
    cases afterwards with
    | closed => cases hends
    | silent => rfl
  | cons event events ih =>
    intro now hreads hends hcontent
    obtain ⟨hevent, hmore⟩ := List.forall_mem_cons.mp hreads
    obtain ⟨due, delivery⟩ := event
    cases delivery with
    | endOfStream => cases hends
    | failure error => exact absurd rfl (hevent error)
    | data bytes =>
      obtain ⟨rfl, hrest⟩ := List.append_eq_nil_iff.mp hcontent
      exact ih hmore hends hrest

/-- A write is answered. -/
theorem Obliging.write_answers {script : Script} (h : script.Obliging) (data : Bytes) :
    ∃ count after, script.write data = .ready (.ok count) after ∧ after.Obliging ∧
      after.ends = script.ends := by
  exact ⟨_, _, h.write_eq data, ⟨h.reads, h.perWrite, h.failAt, h.stallAt, h.flushes⟩, rfl⟩

end Script

/-! ## Sessions -/

namespace Session

variable {α β : Type}

/-- A run leaves an obliging stream obliging, and ending as before. -/
theorem run_keeps (deadline : Option Nat) (s : Session α) (now : Nat) {script : Script}
    (h : script.Obliging) :
    (s.run deadline now script).script.Obliging ∧
      (s.run deadline now script).script.ends = script.ends := by
  let inv : Script → Prop := fun after => after.Obliging ∧ after.ends = script.ends
  suffices hkept : inv (s.run deadline now script).script from hkept
  refine run_invariant ?_ ?_ s now ⟨h, rfl⟩
  · rintro before size now time answer events ⟨hbefore, hends⟩ hread
    obtain ⟨hafter, hsame⟩ := hbefore.read_keeps hread
    exact ⟨hafter, hsame.trans hends⟩
  · rintro before after data answer ⟨hbefore, hends⟩ hwrite
    obtain ⟨count, _, heq, hafter, hsame⟩ := hbefore.write_answers data
    rw [heq] at hwrite
    cases hwrite
    exact ⟨hafter, hsame.trans hends⟩

/-- **A peer that ends its stream is always enough**: every run comes to its own end. -/
theorem run_finishes :
    ∀ {s : Session α} {now : Nat} {script : Script}, script.Obliging → script.ends = true →
      ∃ value time rest log, s.run none now script = .finished value time rest log := by
  intro s
  induction s with
  | done value =>
    intro now script _ _
    exact ⟨_, _, _, _, rfl⟩
  | read size next ih =>
    intro now script h hends
    have hanswer : ∃ time answer events, script.read size now = .ready time answer events := by
      unfold Script.read
      split
      · exact ⟨_, _, _, rfl⟩
      · exact Script.readEvents_answers h.reads hends
    obtain ⟨time, answer, events, hread⟩ := hanswer
    obtain ⟨hrest, hends'⟩ := h.read_keeps hread
    simp only [run, hread]
    exact ih answer hrest (hends'.trans hends)
  | write data next ih =>
    intro now script h hends
    obtain ⟨count, after, hwrite, hafter, hends'⟩ := h.write_answers data
    simp only [run, hwrite]
    exact ih _ hafter (hends'.trans hends)
  | flush next ih =>
    intro now script h hends
    exact ih _ h hends
  | report event next ih =>
    intro now script h hends
    obtain ⟨value, time, rest, log, hrun⟩ := @ih now script h hends
    exact ⟨value, time, rest, event :: log, by simp only [run, hrun, Outcome.logged]⟩

/-- A loop of reads that waits for ever was sent too little. -/
theorem lt_of_readMore_waiting :
    ∀ {fuel need : Nat} {collected : Bytes} {now : Nat} {script rest : Script}
      {log : List LogEvent},
      (readMore fuel need collected).run none now script = .waiting rest log →
      script.content.length < need := by
  intro fuel
  induction fuel with
  | zero =>
    intro need collected now script rest log h
    cases need <;> cases h
  | succ fuel ih =>
    intro need collected now script rest log h
    cases need with
    | zero => cases h
    | succ need =>
      simp only [readMore, run] at h
      split at h
      · rename_i hread
        have hnothing : script.content = [] := by
          rw [Script.read, if_neg (Nat.succ_ne_zero need)] at hread
          exact Script.contentOf_of_never hread
        rw [hnothing]
        exact Nat.succ_pos need
      · rename_i time answer events hread
        have hdelivers := Script.read_delivers hread
        simp only [isLate, Bool.false_eq_true, if_false] at h
        split at h
        · cases h
        · cases h
        · rename_i bytes _
          obtain ⟨hcontent, hle, -⟩ := hdelivers
          have hmore : (Script.contentOf events).length < need + 1 - bytes.length := ih h
          rw [hcontent, List.length_append]
          omega

/-- A loop of reads waits for ever for what a silent peer does not send. -/
theorem readMore_waiting :
    ∀ {fuel need : Nat} {collected : Bytes} {now : Nat} {script : Script}, need ≤ fuel →
      script.Obliging → script.ends = false → script.content.length < need →
      ∃ rest log, (readMore fuel need collected).run none now script = .waiting rest log := by
  intro fuel
  induction fuel with
  | zero =>
    intro need collected now script hfuel _ _ hshort
    omega
  | succ fuel ih =>
    intro need collected now script hfuel h hsilent hshort
    cases need with
    | zero => omega
    | succ need =>
      simp only [readMore, run]
      by_cases hcontent : script.content = []
      · have hnever : script.read (need + 1) now = .never := by
          rw [Script.read, if_neg (Nat.succ_ne_zero need)]
          exact Script.never_of_contentOf h.reads hsilent hcontent
        rw [hnever]
        exact ⟨_, _, rfl⟩
      · obtain ⟨time, front, events, hread, hfront, hle, hcut, hrest⟩ :=
          h.read (Nat.succ_pos need) hcontent now
        have hends := (h.read_keeps hread).2
        have hpos := List.length_pos_iff.mpr hfront
        have hmore : (Script.contentOf events).length < need + 1 - front.length := by
          rw [hcut, List.length_append] at hshort
          omega
        rw [hread]
        cases front with
        | nil => exact absurd rfl hfront
        | cons b front => exact ih (by omega) hrest (hends.trans hsilent) hmore

/-- A loop of writes does not wait for ever. -/
theorem writeMore_finishes :
    ∀ {fuel : Nat} {data : Bytes} {now : Nat} {script rest : Script} {log : List LogEvent},
      script.Obliging → (writeMore fuel data).run none now script ≠ .waiting rest log := by
  intro fuel
  induction fuel with
  | zero =>
    intro data now script rest log _ h
    cases data <;> cases h
  | succ fuel ih =>
    intro data now script rest log hscript h
    cases data with
    | nil => cases h
    | cons b data =>
      obtain ⟨count, after, hwrite, hafter, -⟩ := hscript.write_answers (b :: data)
      simp only [writeMore, run, hwrite] at h
      split at h
      · cases h
      · cases h
      · exact ih hafter h

end Session

/-! ## Handshakes -/

namespace Handshake

variable {α β : Type}

/-- Whenever the handshake waits for ever on an obliging stream, this was to come on it. -/
def WaitsOnly (handshake : Handshake α) (stuck : Bytes → Prop) : Prop :=
  ∀ ⦃now : Nat⦄ ⦃script rest : Script⦄ ⦃log : List LogEvent⦄, script.Obliging →
    handshake.session.run none now script = .waiting rest log → stuck script.content

/-- On every obliging stream on which this is to come, and then silence, the handshake waits for
ever. -/
def Blocks (handshake : Handshake α) (stuck : Bytes → Prop) : Prop :=
  ∀ (now : Nat) (script : Script), script.Obliging → script.ends = false → stuck script.content →
    ∃ rest log, handshake.session.run none now script = .waiting rest log

variable {stuck : Bytes → Prop}

/-! ### When a handshake waits -/

theorem WaitsOnly.mono {x : Handshake α} {weaker : Bytes → Prop} (hx : x.WaitsOnly stuck)
    (h : ∀ bytes, stuck bytes → weaker bytes) : x.WaitsOnly weaker := by
  intro now script rest log hscript hrun
  exact h _ (hx hscript hrun)

/-- **Sequencing**: the whole waits where the first part does, or behind what that took. -/
theorem WaitsOnly.bind {x : Handshake α} {f : α → Handshake β} {more : Bytes → Prop}
    {post : Bytes → Bytes → α → Prop} (hx : x.WaitsOnly stuck) (hensures : x.Ensures post)
    (hstuck : ∀ bytes, stuck bytes → more bytes)
    (hf : ∀ front sent a, post front sent a → (f a).WaitsOnly fun back => more (front ++ back)) :
    (x >>= f).WaitsOnly more := by
  intro now script rest log hscript hrun
  rw [session_bind] at hrun
  cases hfirst : x.session.run none now script with
  | waiting between firstLog => exact hstuck _ (hx hscript hfirst)
  | finished result time between firstLog =>
    have hbetween : between.Obliging := by
      have hkeeps := (Session.run_keeps none x.session now hscript).1
      rwa [hfirst] at hkeeps
    rw [Session.run_bind_of_finished hfirst] at hrun
    obtain ⟨tail, hsecond⟩ := Session.foldr_logged_waiting hrun
    cases result with
    | error error => cases hsecond
    | ok a =>
      obtain ⟨front, sent, hcontent, -, hpost⟩ := hensures hfirst
      rw [hcontent]
      exact hf front sent a hpost hbetween hsecond

/-- A first part that never waits. -/
theorem WaitsOnly.of_never {x : Handshake α} {f : α → Handshake β} {more : Bytes → Prop}
    {post : Bytes → Bytes → α → Prop} (hx : x.WaitsOnly fun _ => False) (hensures : x.Ensures post)
    (hf : ∀ front sent a, post front sent a → (f a).WaitsOnly fun back => more (front ++ back)) :
    (x >>= f).WaitsOnly more :=
  hx.bind hensures (fun _ h => h.elim) hf

theorem waitsOnly_pure (a : α) : (pure a : Handshake α).WaitsOnly stuck := by
  intro _ _ _ _ _ hrun
  cases hrun

theorem waitsOnly_throw (error : ProxyError) : (throw error : Handshake α).WaitsOnly stuck := by
  intro _ _ _ _ _ hrun
  cases hrun

theorem waitsOnly_ofIo {session : Session (Except IoError α)}
    (h : ∀ ⦃now script rest log⦄, script.Obliging →
      session.run none now script = .waiting rest log → stuck script.content) :
    (ofIo session).WaitsOnly stuck := by
  intro now script rest log hscript hrun
  change (session.bind _).run none now script = _ at hrun
  cases hfirst : session.run none now script with
  | waiting between firstLog => exact h hscript hfirst
  | finished result time between firstLog =>
    rw [Session.run_bind_of_finished hfirst] at hrun
    obtain ⟨tail, hsecond⟩ := Session.foldr_logged_waiting hrun
    cases result <;> cases hsecond

theorem waitsOnly_readExact (count : Nat) :
    (readExact count).WaitsOnly fun bytes => bytes.length < count :=
  waitsOnly_ofIo fun _ _ _ _ _ hrun => Session.lt_of_readMore_waiting hrun

theorem waitsOnly_readByte : readByte.WaitsOnly fun bytes => bytes = [] := by
  refine waitsOnly_ofIo fun now script rest log _ hrun => ?_
  simp only [Session.readByte, Session.run] at hrun
  split at hrun
  · rename_i hread
    exact Script.contentOf_of_never hread
  · simp only [isLate, Bool.false_eq_true, if_false] at hrun
    split at hrun <;> cases hrun

theorem waitsOnly_writeAll (data : Bytes) : (writeAll data).WaitsOnly fun _ => False :=
  waitsOnly_ofIo fun _ _ _ _ hscript hrun => Session.writeMore_finishes hscript hrun

theorem waitsOnly_flush : flush.WaitsOnly fun _ => False :=
  waitsOnly_ofIo fun _ _ _ _ _ hrun => by cases hrun

/-! ### What makes a handshake wait -/

/-- The whole waits where its first part does. -/
theorem Blocks.bind {x : Handshake α} (hx : x.Blocks stuck) (f : α → Handshake β) :
    (x >>= f).Blocks stuck := by
  intro now script hscript hsilent hstuck
  obtain ⟨rest, log, hrun⟩ := hx now script hscript hsilent hstuck
  rw [session_bind]
  exact ⟨rest, log, Session.run_bind_of_waiting hrun⟩

/-- The whole waits behind what its first part takes. -/
theorem Follows.blocks {x : Handshake α} {f : α → Handshake β} {acts : List Act} {a : α}
    (hx : x.Follows acts a) (hf : (f a).Blocks stuck) :
    (x >>= f).Blocks fun bytes => ∃ back, bytes = Act.taken acts ++ back ∧ stuck back := by
  intro now script hscript hsilent hstuck
  obtain ⟨back, hcontent, hback⟩ := hstuck
  obtain ⟨time, between, firstLog, hfirst, hrest, -, hbetween⟩ := hx.run now hscript hcontent
  have hends : between.ends = false := by
    have hkeeps := (Session.run_keeps none x.session now hscript).2
    rw [hfirst] at hkeeps
    exact hkeeps.trans hsilent
  obtain ⟨rest, log, hsecond⟩ := hf time between hbetween hends (hrest ▸ hback)
  rw [session_bind, Session.run_bind_of_finished hfirst]
  exact ⟨rest, firstLog ++ log, Session.foldr_logged_of_waiting firstLog hsecond⟩

theorem blocks_readExact (count : Nat) :
    (readExact count).Blocks fun bytes => bytes.length < count := by
  intro now script hscript hsilent hshort
  obtain ⟨rest, log, hrun⟩ :=
    @Session.readMore_waiting count count [] now script (Nat.le_refl count) hscript hsilent hshort
  exact ⟨rest, log, Session.run_bind_of_waiting hrun⟩

theorem blocks_readByte : readByte.Blocks fun bytes => bytes = [] := by
  intro now script hscript hsilent hnothing
  have hnever : script.read 1 now = .never :=
    Script.never_of_contentOf hscript.reads hsilent hnothing
  have hrun : Session.readByte.run none now script = .waiting script [] := by
    simp only [Session.readByte, Session.run, hnever]
  exact ⟨_, _, Session.run_bind_of_waiting hrun⟩

end Handshake

end SniffProxy
