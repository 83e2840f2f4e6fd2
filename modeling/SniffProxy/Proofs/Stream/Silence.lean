import SniffProxy.Proofs.Stream.Ensuring

/-!
# What a run did until it stopped

A run stops with a value, with a failure or left waiting. In every case it has taken some bytes off
the front of the stream's content and had some bytes accepted; none, if it is of a session that makes
no write.

* `Session.Silent` — a session that makes no write; `Session.Silent.run_frame`.
* `Session.Leaves` — a relation that holds wherever a run stops.
* `Handshake.leaves_bind` — the relation of a sequence, from those of its parts.
-/

namespace SniffProxy

namespace Session

variable {α β : Type}

/-! ## Sessions that make no write -/

/-- A session that makes no write, whatever it reads. -/
def Silent : Session α → Prop
  | .done _ => True
  | .read _ next => ∀ answer, (next answer).Silent
  | .write _ _ => False
  | .flush next => ∀ answer, (next answer).Silent
  | .report _ next => next.Silent

theorem silent_bind {f : α → Session β} :
    ∀ {s : Session α}, s.Silent → (∀ value, (f value).Silent) → (s.bind f).Silent := by
  intro s
  induction s with
  | done value =>
    intro _ hf
    exact hf value
  | read size next ih =>
    intro hs hf answer
    exact ih answer (hs answer) hf
  | write data next ih =>
    intro hs
    exact hs.elim
  | flush next ih =>
    intro hs hf answer
    exact ih answer (hs answer) hf
  | report event next ih =>
    intro hs hf
    exact ih hs hf

/-- A session that records what it reads does nothing else. -/
theorem Records.silent {peek : Peek} {s : Session (α × Peek)} (h : s.Records peek) : s.Silent := by
  induction h with
  | done => exact trivial
  | report _ ih => exact ih
  | read _ ih => exact ih

theorem silent_readMore :
    ∀ {fuel need : Nat} {collected : Bytes}, (readMore fuel need collected).Silent := by
  intro fuel
  induction fuel with
  | zero =>
    intro need collected
    cases need <;> exact trivial
  | succ fuel ih =>
    intro need collected
    cases need with
    | zero => exact trivial
    | succ need =>
      intro answer
      dsimp only
      split
      · exact trivial
      · exact trivial
      · exact ih

/-- **A silent session** leaves a stream with fewer bytes to come and otherwise as it was. -/
theorem Silent.run_frame (deadline : Option Nat) :
    ∀ {s : Session α}, s.Silent → ∀ (now : Nat) (script : Script),
      ∃ taken events, (s.run deadline now script).script = { script with events } ∧
        script.content = taken ++ Script.contentOf events := by
  intro s
  induction s with
  | done value =>
    intro _ now script
    exact ⟨[], script.events, rfl, rfl⟩
  | read size next ih =>
    intro h now script
    simp only [run]
    split
    · exact ⟨[], script.events, rfl, rfl⟩
    · rename_i time answer events hread
      split
      · exact ⟨[], script.events, rfl, rfl⟩
      · obtain ⟨taken, rest, hscript, hcontent⟩ :=
          ih answer (h answer) time { script with events }
        refine ⟨answerBytes answer ++ taken, rest, hscript, ?_⟩
        rw [(Script.read_delivers hread).content_eq, List.append_assoc]
        exact congrArg _ hcontent
  | write data next ih =>
    intro h
    exact h.elim
  | flush next ih =>
    intro h now script
    exact ih _ (h _) now script
  | report event next ih =>
    intro h now script
    simp only [run, Outcome.script_logged]
    exact ih h now script

/-! ## Wherever a run stops -/

/-- However a run ends, and also when it is left waiting, the relation holds between the bytes that
it took off the front of the content and the bytes that it had accepted. -/
def Leaves (s : Session α) (post : Bytes → Bytes → Prop) : Prop :=
  ∀ (deadline : Option Nat) (now : Nat) (script : Script), ∃ taken given,
    script.content = taken ++ (s.run deadline now script).script.content ∧
    (s.run deadline now script).script.received = script.received ++ given ∧
    post taken given

variable {post : Bytes → Bytes → Prop}

theorem Leaves.mono {s : Session α} {weaker : Bytes → Bytes → Prop} (hs : s.Leaves post)
    (h : ∀ taken given, post taken given → weaker taken given) : s.Leaves weaker := by
  intro deadline now script
  obtain ⟨taken, given, hcontent, hreceived, hpost⟩ := hs deadline now script
  exact ⟨taken, given, hcontent, hreceived, h _ _ hpost⟩

theorem Silent.leaves {s : Session α} (h : s.Silent) : s.Leaves fun _ given => given = [] := by
  intro deadline now script
  obtain ⟨taken, events, hscript, hcontent⟩ := h.run_frame deadline now script
  rw [hscript]
  exact ⟨taken, [], hcontent, (List.append_nil _).symm, rfl⟩

/-- An answer that is only put into other words changes nothing. -/
theorem Leaves.bind_done {s : Session α} {f : α → Session β} (hs : s.Leaves post)
    (hf : ∀ value, ∃ answer, f value = .done answer) : (s.bind f).Leaves post := by
  intro deadline now script
  have hsame : ((s.bind f).run deadline now script).script =
      (s.run deadline now script).script := by
    cases hrun : s.run deadline now script with
    | finished value time rest log =>
      obtain ⟨answer, hanswer⟩ := hf value
      rw [run_bind_of_finished hrun, script_foldr_logged, hanswer]
      rfl
    | waiting rest log =>
      rw [run_bind_of_waiting hrun]
      rfl
  rw [hsame]
  exact hs deadline now script

/-- A loop of writes has some first part of the bytes accepted, wherever it stops. -/
theorem leaves_writeMore :
    ∀ {fuel : Nat} {data : Bytes},
      (writeMore fuel data).Leaves fun taken given => taken = [] ∧ given <+: data := by
  intro fuel
  induction fuel with
  | zero =>
    intro data deadline now script
    cases data with
    | nil => exact ⟨[], [], rfl, (List.append_nil _).symm, rfl, List.nil_prefix⟩
    | cons b data => exact ⟨[], [], rfl, (List.append_nil _).symm, rfl, List.nil_prefix⟩
  | succ fuel ih =>
    intro data deadline now script
    cases data with
    | nil => exact ⟨[], [], rfl, (List.append_nil _).symm, rfl, List.nil_prefix⟩
    | cons b data =>
      simp only [writeMore, run]
      split
      · exact ⟨[], [], rfl, (List.append_nil _).symm, rfl, List.nil_prefix⟩
      · rename_i answer after hwrite
        obtain ⟨given, haccepts, hcontent, hreceived⟩ := Script.write_accepts hwrite
        split
        · cases haccepts
          exact ⟨[], [], hcontent.symm, hreceived, rfl, List.nil_prefix⟩
        · obtain ⟨-, rfl⟩ := haccepts
          exact ⟨[], [], hcontent.symm, hreceived, rfl, List.nil_prefix⟩
        · rename_i count _
          obtain ⟨-, rfl⟩ := haccepts
          obtain ⟨_, more, hkept, hmore, rfl, hprefix⟩ :=
            @ih ((b :: data).drop count) deadline now after
          refine ⟨[], (b :: data).take count ++ more, hcontent.symm.trans hkept, ?_, rfl, ?_⟩
          · rw [hmore, hreceived, List.append_assoc]
          · have hwhole := (List.prefix_append_right_inj ((b :: data).take count)).mpr hprefix
            rwa [List.take_append_drop] at hwhole

end Session

namespace Handshake

variable {α β : Type}

theorem leaves_ofIo {session : Session (Except IoError α)} {post : Bytes → Bytes → Prop}
    (h : session.Leaves post) : (ofIo session).session.Leaves post :=
  h.bind_done fun result => by cases result <;> exact ⟨_, rfl⟩

theorem leaves_writeAll (data : Bytes) :
    (writeAll data).session.Leaves fun taken given => taken = [] ∧ given <+: data :=
  leaves_ofIo Session.leaves_writeMore

/-- **Sequencing**: a run stops in the first part or, behind all that the first part did, in the
second. -/
theorem leaves_bind {x : Handshake α} {f : α → Handshake β} {before after : Bytes → Bytes → Prop}
    {post : Bytes → Bytes → α → Prop} (hx : x.session.Leaves before) (hensures : x.Ensures post)
    (hbefore : ∀ taken given, before taken given → after taken given)
    (hf : ∀ front sent a, post front sent a →
      (f a).session.Leaves fun back more => after (front ++ back) (sent ++ more)) :
    (x >>= f).session.Leaves after := by
  intro deadline now script
  rw [session_bind]
  obtain ⟨taken, given, hcontent, hreceived, hpost⟩ := hx deadline now script
  cases hrun : x.session.run deadline now script with
  | waiting rest log =>
    rw [hrun] at hcontent hreceived
    rw [Session.run_bind_of_waiting hrun]
    exact ⟨taken, given, hcontent, hreceived, hbefore _ _ hpost⟩
  | finished result time rest log =>
    rw [Session.run_bind_of_finished hrun, Session.script_foldr_logged]
    cases result with
    | error error =>
      rw [hrun] at hcontent hreceived
      exact ⟨taken, given, hcontent, hreceived, hbefore _ _ hpost⟩
    | ok a =>
      obtain ⟨front, sent, hcontent, hreceived, hpost⟩ := hensures hrun
      obtain ⟨back, more, hcontent', hreceived', hafter⟩ :=
        hf front sent a hpost deadline time rest
      refine ⟨front ++ back, sent ++ more, ?_, ?_, hafter⟩
      · rw [hcontent, List.append_assoc, ← hcontent']
      · rw [hreceived', hreceived, List.append_assoc]

theorem leaves_adapt {x : Handshake α} {post : Bytes → Bytes → Prop} (hx : x.session.Leaves post)
    (explain : ProxyError → ProxyError) :
    (session (ExceptT.adapt explain x)).Leaves post :=
  hx.bind_done fun result => by cases result <;> exact ⟨_, rfl⟩

/-! ## Silent handshakes -/

theorem silent_ofIo {session : Session (Except IoError α)} (h : session.Silent) :
    (ofIo session).session.Silent :=
  Session.silent_bind h fun result => by cases result <;> exact trivial

theorem silent_bind {x : Handshake α} {f : α → Handshake β} (hx : x.session.Silent)
    (hf : ∀ a, (f a).session.Silent) : (x >>= f).session.Silent := by
  rw [session_bind]
  refine Session.silent_bind hx fun result => ?_
  cases result with
  | ok a => exact hf a
  | error error => exact trivial

theorem silent_readExact (count : Nat) : (readExact count).session.Silent :=
  silent_ofIo Session.silent_readMore

theorem silent_readByte : readByte.session.Silent := by
  refine silent_ofIo fun answer => ?_
  dsimp only
  split <;> exact trivial

theorem silent_flush : flush.session.Silent :=
  silent_ofIo fun _ => trivial

end Handshake

end SniffProxy
