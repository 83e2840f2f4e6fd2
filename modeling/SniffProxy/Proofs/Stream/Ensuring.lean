import SniffProxy.Proofs.Stream.Run
import SniffProxy.Proofs.Stream.Taking

/-!
# What a finished handshake did

A handshake that ended with a value took some bytes off the front of the stream's content and had
some bytes accepted, however the stream was cut and however it took what was written. The relation
between the two and the value is known from the handshake alone.

* `Session.run_read`, `Session.run_write` — what one request of a finished run did.
* `Handshake.Ensures` — a relation that holds after every run that ended with a value.
* `Handshake.Ensures.bind` — the relation of a sequence, from those of its parts.
* `Handshake.FailsOnly` — the causes with which a run may end in a failure.
-/

namespace SniffProxy

/-! ## Single requests -/

namespace Script

/-- A write of these bytes may give this answer, and these are the bytes it had accepted. -/
def Accepts (data : Bytes) (answer : Except IoError Nat) (given : Bytes) : Prop :=
  match answer with
  | .ok count => count ≤ data.length ∧ given = data.take count
  | .error _ => given = []

theorem acceptable_le (script : Script) (offered : Nat) : script.acceptable offered ≤ offered := by
  have hcap : ∀ (n : Nat) (limit : Option Nat), capAt n limit ≤ n := by
    intro n limit
    cases limit with
    | none => exact Nat.le_refl n
    | some limit => exact Nat.min_le_left n limit
  exact Nat.le_trans (hcap _ _) (Nat.le_trans (hcap _ _) (hcap _ _))

/-- A write leaves what is still to come, and what it had accepted is behind all that was. -/
theorem write_accepts {script after : Script} {data : Bytes} {answer : Except IoError Nat}
    (h : script.write data = .ready answer after) :
    ∃ given, Accepts data answer given ∧ after.content = script.content ∧
      after.received = script.received ++ given := by
  unfold write at h
  split at h
  · cases h
    exact ⟨[], rfl, rfl, (List.append_nil _).symm⟩
  · split at h
    · cases h
    · cases h
      refine ⟨_, ⟨script.acceptable_le data.length, rfl⟩, rfl, ?_⟩
      simp [received, written]

end Script

namespace Session

variable {α : Type} {deadline : Option Nat} {now time : Nat} {script rest : Script} {value : α}
  {log : List LogEvent}

/-- A finished run that begins with a read goes on with the next piece of the content. -/
theorem run_read {size : Nat} {next : Except IoError Bytes → Session α}
    (h : (read size next).run deadline now script = .finished value time rest log) :
    ∃ answer readTime after, Delivers size script.content answer after.content ∧
      after.received = script.received ∧
      (next answer).run deadline readTime after = .finished value time rest log := by
  rw [run] at h
  split at h
  · cases h
  · rename_i readTime answer events hread
    split at h
    · cases h
    · exact ⟨answer, readTime, { script with events }, Script.read_delivers hread, rfl, h⟩

/-- A finished run that begins with a write goes on behind the accepted bytes. -/
theorem run_write {data : Bytes} {next : Except IoError Nat → Session α}
    (h : (write data next).run deadline now script = .finished value time rest log) :
    ∃ answer after given, Script.Accepts data answer given ∧ after.content = script.content ∧
      after.received = script.received ++ given ∧
      (next answer).run deadline now after = .finished value time rest log := by
  rw [run] at h
  split at h
  · cases h
  · rename_i answer after hwrite
    obtain ⟨given, haccepts, hcontent, hreceived⟩ := Script.write_accepts hwrite
    exact ⟨answer, after, given, haccepts, hcontent, hreceived, h⟩

/-! ## Loops over single requests -/

/-- A finished loop of reads that got all it needed took just that. -/
theorem run_readMore {bytes : Bytes} :
    ∀ {fuel need : Nat} {collected : Bytes} {now : Nat} {script : Script},
      (readMore fuel need collected).run deadline now script = .finished (.ok bytes) time rest log →
      ∃ taken, bytes = collected ++ taken ∧ taken.length = need ∧
        script.content = taken ++ rest.content ∧ rest.received = script.received := by
  intro fuel
  induction fuel with
  | zero =>
    intro need collected now script h
    cases need with
    | zero =>
      cases h
      exact ⟨[], (List.append_nil _).symm, rfl, rfl, rfl⟩
    | succ need => cases h
  | succ fuel ih =>
    intro need collected now script h
    cases need with
    | zero =>
      cases h
      exact ⟨[], (List.append_nil _).symm, rfl, rfl, rfl⟩
    | succ need =>
      obtain ⟨answer, readTime, after, hdelivers, hreceived, hnext⟩ := run_read h
      split at hnext
      · cases hnext
      · cases hnext
      · rename_i front _
        obtain ⟨hcontent, hle, _⟩ := hdelivers
        obtain ⟨taken, rfl, hlength, hmore, hquiet⟩ := ih hnext
        refine ⟨front ++ taken, List.append_assoc _ _ _, ?_, ?_, hquiet.trans hreceived⟩
        · rw [List.length_append]
          omega
        · rw [hcontent, hmore, List.append_assoc]

/-- A finished loop of writes that failed at none had all the bytes accepted. -/
theorem run_writeMore :
    ∀ {fuel : Nat} {data : Bytes} {now : Nat} {script : Script},
      (writeMore fuel data).run deadline now script = .finished (.ok ()) time rest log →
      rest.content = script.content ∧ rest.received = script.received ++ data := by
  intro fuel
  induction fuel with
  | zero =>
    intro data now script h
    cases data with
    | nil =>
      cases h
      exact ⟨rfl, (List.append_nil _).symm⟩
    | cons b data => cases h
  | succ fuel ih =>
    intro data now script h
    cases data with
    | nil =>
      cases h
      exact ⟨rfl, (List.append_nil _).symm⟩
    | cons b data =>
      obtain ⟨answer, after, given, haccepts, hcontent, hreceived, hnext⟩ := run_write h
      split at hnext
      · cases hnext
      · cases hnext
      · obtain ⟨_, rfl⟩ := haccepts
        obtain ⟨hkept, hmore⟩ := ih hnext
        refine ⟨hkept.trans hcontent, ?_⟩
        rw [hmore, hreceived, List.append_assoc, List.take_append_drop]

end Session

/-! ## Relations after a run -/

namespace Handshake

variable {α β : Type}

/-- A finished run of a sequence either failed in its first part or is a run of each. -/
theorem run_bind {x : Handshake α} {f : α → Handshake β} {deadline : Option Nat} {now time : Nat}
    {script rest : Script} {result : Except ProxyError β} {log : List LogEvent}
    (h : (x >>= f).session.run deadline now script = .finished result time rest log) :
    (∃ error, result = .error error ∧
        x.session.run deadline now script = .finished (.error error) time rest log) ∨
      ∃ a firstTime between firstLog secondLog,
        x.session.run deadline now script = .finished (.ok a) firstTime between firstLog ∧
          (f a).session.run deadline firstTime between = .finished result time rest secondLog ∧
          log = firstLog ++ secondLog := by
  rw [session_bind] at h
  obtain ⟨first, firstTime, between, firstLog, secondLog, hfirst, hsecond, hlog⟩ :=
    Session.run_bind h
  cases first with
  | ok a => exact .inr ⟨a, firstTime, between, firstLog, secondLog, hfirst, hsecond, hlog⟩
  | error error =>
    cases hsecond
    exact .inl ⟨error, rfl, by rw [hlog, List.append_nil, hfirst]⟩

/-- Whenever the handshake ends with a value, the relation holds between the bytes that it took off
the front of the content, the bytes that it had accepted, and the value. -/
def Ensures (handshake : Handshake α) (post : Bytes → Bytes → α → Prop) : Prop :=
  ∀ ⦃deadline : Option Nat⦄ ⦃now time : Nat⦄ ⦃script rest : Script⦄ ⦃value : α⦄
    ⦃log : List LogEvent⦄,
    handshake.session.run deadline now script = .finished (.ok value) time rest log →
    ∃ taken given, script.content = taken ++ rest.content ∧
      rest.received = script.received ++ given ∧ post taken given value

variable {post : Bytes → Bytes → α → Prop}

theorem Ensures.mono {x : Handshake α} {weaker : Bytes → Bytes → α → Prop} (hx : x.Ensures post)
    (h : ∀ taken given value, post taken given value → weaker taken given value) :
    x.Ensures weaker := by
  intro deadline now time script rest value log hrun
  obtain ⟨taken, given, hcontent, hreceived, hpost⟩ := hx hrun
  exact ⟨taken, given, hcontent, hreceived, h _ _ _ hpost⟩

/-- **Sequencing**: what the second part does comes behind what the first one did. -/
theorem Ensures.bind {x : Handshake α} {f : α → Handshake β} {after : Bytes → Bytes → β → Prop}
    (hx : x.Ensures post)
    (hf : ∀ front sent a, post front sent a →
      (f a).Ensures fun back more b => after (front ++ back) (sent ++ more) b) :
    (x >>= f).Ensures after := by
  intro deadline now time script rest value log hrun
  obtain ⟨error, herror, _⟩ | ⟨a, firstTime, between, _, _, hfirst, hsecond, _⟩ := run_bind hrun
  · cases herror
  · obtain ⟨front, sent, hcontent, hreceived, hpost⟩ := hx hfirst
    obtain ⟨back, more, hcontent', hreceived', hafter⟩ := hf front sent a hpost hsecond
    refine ⟨front ++ back, sent ++ more, ?_, ?_, hafter⟩
    · rw [hcontent, hcontent', List.append_assoc]
    · rw [hreceived', hreceived, List.append_assoc]

/-- Another wording for failures changes nothing. -/
theorem Ensures.adapt {x : Handshake α} (hx : x.Ensures post) (explain : ProxyError → ProxyError) :
    Ensures (ExceptT.adapt explain x : Handshake α) post := by
  intro deadline now time script rest value log hrun
  obtain ⟨first, _, _, _, _, hfirst, hsecond, _⟩ := Session.run_bind hrun
  cases first with
  | ok a =>
    cases hsecond
    exact hx hfirst
  | error error => cases hsecond

/-- A handshake that fails ensures anything. -/
theorem ensures_throw (error : ProxyError) : (throw error : Handshake α).Ensures post := by
  intro _ _ _ _ _ _ _ hrun
  cases hrun

theorem ensures_ofExcept {result : Except ProxyError α} (h : ∀ a, result = .ok a → post [] [] a) :
    (ofExcept result).Ensures post := by
  intro _ _ _ script _ value _ hrun
  cases hrun
  exact ⟨[], [], rfl, (List.append_nil _).symm, h value rfl⟩

/-- The value that is answered at once. -/
theorem ensures_ofExcept_ok (a : α) :
    (ofExcept (.ok a)).Ensures fun taken given b => taken = [] ∧ given = [] ∧ b = a :=
  ensures_ofExcept fun b hb => by
    cases hb
    exact ⟨rfl, rfl, rfl⟩

theorem ensures_pure {a : α} (h : post [] [] a) : (pure a : Handshake α).Ensures post :=
  ensures_ofExcept fun _ heq => by
    cases heq
    exact h

theorem ensures_report (event : LogEvent) :
    (report event).Ensures fun taken given _ => taken = [] ∧ given = [] := by
  intro _ _ _ script _ value _ hrun
  obtain ⟨tail, hdone, _⟩ := Session.logged_eq_finished hrun
  cases hdone
  exact ⟨[], [], rfl, (List.append_nil _).symm, rfl, rfl⟩

/-- A handshake that is a session whose failures are those of the stream. -/
theorem run_ofIo {session : Session (Except IoError α)} {deadline : Option Nat} {now time : Nat}
    {script rest : Script} {value : α} {log : List LogEvent}
    (h : (ofIo session).session.run deadline now script = .finished (.ok value) time rest log) :
    ∃ tail, session.run deadline now script = .finished (.ok value) time rest tail := by
  obtain ⟨first, firstTime, between, firstLog, secondLog, hfirst, hsecond, _⟩ :=
    Session.run_bind h
  cases first with
  | error error => cases hsecond
  | ok a =>
    cases hsecond
    exact ⟨firstLog, hfirst⟩

theorem ensures_read (size : Nat) :
    (read size).Ensures fun taken given bytes => given = [] ∧ taken = bytes := by
  intro _ _ _ script _ value _ hrun
  obtain ⟨_, hrun⟩ := run_ofIo hrun
  obtain ⟨answer, readTime, after, hdelivers, hreceived, hnext⟩ := Session.run_read hrun
  cases hnext
  exact ⟨value, [], hdelivers.1, by rw [hreceived, List.append_nil], rfl, rfl⟩

/-- One read of just so many bytes. -/
theorem ensures_readOnce (count : Nat) :
    (readOnce count).Ensures fun taken given bytes =>
      given = [] ∧ taken = bytes ∧ bytes.length = count := by
  refine (ensures_read count).bind ?_
  rintro front _ bytes ⟨rfl, rfl⟩
  split
  · rename_i hlength
    exact ensures_pure ⟨rfl, List.append_nil _, hlength⟩
  · exact ensures_throw _

theorem ensures_readExact (count : Nat) :
    (readExact count).Ensures fun taken given bytes =>
      given = [] ∧ taken = bytes ∧ bytes.length = count := by
  intro _ _ _ script _ value _ hrun
  obtain ⟨_, hrun⟩ := run_ofIo hrun
  obtain ⟨taken, hvalue, hlength, hcontent, hreceived⟩ := Session.run_readMore hrun
  rw [List.nil_append] at hvalue
  subst hvalue
  exact ⟨value, [], hcontent, by rw [hreceived, List.append_nil], rfl, rfl, hlength⟩

theorem ensures_readByte :
    readByte.Ensures fun taken given b => given = [] ∧ taken = [b] := by
  intro _ _ _ script rest value _ hrun
  obtain ⟨_, hrun⟩ := run_ofIo hrun
  obtain ⟨answer, readTime, after, hdelivers, hreceived, hnext⟩ := Session.run_read hrun
  split at hnext
  · cases hnext
  · cases hnext
  · rename_i b more
    cases hnext
    obtain ⟨hcontent, hle, _⟩ := hdelivers
    have hmore : more = [] := by
      rw [List.length_cons] at hle
      exact List.eq_nil_of_length_eq_zero (by omega)
    subst hmore
    exact ⟨[value], [], hcontent, by rw [hreceived, List.append_nil], rfl, rfl⟩

theorem ensures_write (data : Bytes) :
    (write data).Ensures fun taken given count =>
      taken = [] ∧ count ≤ data.length ∧ given = data.take count := by
  intro _ _ _ script _ value _ hrun
  obtain ⟨_, hrun⟩ := run_ofIo hrun
  obtain ⟨answer, after, given, haccepts, hcontent, hreceived, hnext⟩ := Session.run_write hrun
  cases hnext
  exact ⟨[], given, hcontent.symm, hreceived, rfl, haccepts⟩

theorem ensures_writeAll (data : Bytes) :
    (writeAll data).Ensures fun taken given _ => taken = [] ∧ given = data := by
  intro _ _ _ script _ value _ hrun
  obtain ⟨_, hrun⟩ := run_ofIo hrun
  obtain ⟨hcontent, hreceived⟩ := Session.run_writeMore hrun
  exact ⟨[], data, hcontent.symm, hreceived, rfl, rfl⟩

theorem ensures_flush : flush.Ensures fun taken given _ => taken = [] ∧ given = [] := by
  intro _ _ _ script _ value _ hrun
  obtain ⟨_, hrun⟩ := run_ofIo hrun
  rw [Session.run, Session.run] at hrun
  injection hrun with _ _ hscript
  rw [hscript]
  exact ⟨[], [], rfl, (List.append_nil _).symm, rfl, rfl⟩

/-! ## Causes of failures -/

/-- Whenever the handshake ends in a failure, it is one of these. -/
def FailsOnly (handshake : Handshake α) (cause : ProxyError → Prop) : Prop :=
  ∀ ⦃deadline : Option Nat⦄ ⦃now time : Nat⦄ ⦃script rest : Script⦄ ⦃error : ProxyError⦄
    ⦃log : List LogEvent⦄,
    handshake.session.run deadline now script = .finished (.error error) time rest log →
    cause error

variable {cause : ProxyError → Prop}

theorem FailsOnly.bind {x : Handshake α} {f : α → Handshake β} (hx : x.FailsOnly cause)
    (hf : ∀ a, (f a).FailsOnly cause) : (x >>= f).FailsOnly cause := by
  intro deadline now time script rest error log hrun
  obtain ⟨_, herror, hfirst⟩ | ⟨a, _, _, _, _, _, hsecond, _⟩ := run_bind hrun
  · cases herror
    exact hx hfirst
  · exact hf a hsecond

theorem failsOnly_throw {error : ProxyError} (h : cause error) :
    (throw error : Handshake α).FailsOnly cause := by
  intro _ _ _ _ _ _ _ hrun
  cases hrun
  exact h

theorem failsOnly_pure (a : α) : (pure a : Handshake α).FailsOnly cause := by
  intro _ _ _ _ _ _ _ hrun
  cases hrun

theorem failsOnly_ofIo (session : Session (Except IoError α)) (h : ∀ error, cause (.io error)) :
    (ofIo session).FailsOnly cause := by
  intro _ _ _ _ _ _ _ hrun
  obtain ⟨first, _, _, _, _, _, hsecond, _⟩ := Session.run_bind hrun
  cases first with
  | ok a => cases hsecond
  | error error =>
    cases hsecond
    exact h error

theorem failsOnly_readOnce (count : Nat) (hio : ∀ error, cause (.io error))
    (hshort : cause (.malformedHeader .shortRead)) : (readOnce count).FailsOnly cause := by
  refine (failsOnly_ofIo _ hio).bind fun bytes => ?_
  split
  · exact failsOnly_pure bytes
  · exact failsOnly_throw hshort

theorem failsOnly_writeFrame (frame : Bytes) (hio : ∀ error, cause (.io error))
    (hshort : ∀ written expected, cause (.shortWrite written expected)) :
    (writeFrame frame).FailsOnly cause := by
  refine (failsOnly_ofIo _ hio).bind fun written => ?_
  split
  · exact failsOnly_ofIo _ hio
  · exact failsOnly_throw (hshort _ _)

end Handshake

end SniffProxy
