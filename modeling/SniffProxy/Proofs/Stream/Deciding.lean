import SniffProxy.Proofs.Stream.Waiting

/-!
# How a handshake ends on a stream that ends

On an obliging stream that ends, what a handshake answers, leaves unread and has accepted follows
from the bytes on the stream, whatever pieces they arrive in. Either it is decided within them, so
that further bytes would stay unread and change nothing, or it fails because the stream ends.

* `Ending`, `Session.EndsAs` — how a session ends on all streams with some content.
* `Session.EndsWithin` — it ends so with any further bytes behind the content.
* `Handshake.Decides` — every content has an ending, with what is known of the failures;
  `Handshake.Decides.bind` — a sequence decides if its parts do.
* `Handshake.Decides.of_isPrefix` — what is cut short fails with the stream.
* `Handshake.Untold` — a failure before anything was written.
-/

namespace SniffProxy

/-- How a session ends: what it answers, leaves unread, and had accepted. -/
structure Ending (α : Type) where
  result : α
  unread : Bytes
  written : Bytes
  deriving DecidableEq, Repr

/-- There is a stream with any content: one that brings it in one piece. -/
theorem Script.exists_content (content : Bytes) :
    ∃ script : Script, script.Obliging ∧ script.ends = true ∧ script.content = content := by
  refine ⟨Script.holding {} 0 content, obliging_empty.holding 0 content, ?_, ?_⟩
  · by_cases hnil : content = []
    · rw [hnil]
      rfl
    · rw [holding_of_ne hnil]
      rfl
  · rw [holding_content]
    exact List.append_nil content

namespace Session

variable {α β : Type}

/-! ## Endings of sessions -/

/-- On every obliging stream with this content that then ends, in whatever pieces it arrives, the
session ends like this. -/
def EndsAs (s : Session α) (content : Bytes) (ending : Ending α) : Prop :=
  ∀ ⦃now : Nat⦄ ⦃script : Script⦄, script.Obliging → script.ends = true →
    script.content = content →
    ∃ time rest log, s.run none now script = .finished ending.result time rest log ∧
      rest.content = ending.unread ∧ rest.received = script.received ++ ending.written

/-- The session ends like this within the content: whatever else is behind it stays unread. -/
def EndsWithin (s : Session α) (content : Bytes) (ending : Ending α) : Prop :=
  ∀ more, s.EndsAs (content ++ more) { ending with unread := ending.unread ++ more }

variable {s : Session α} {content : Bytes} {ending : Ending α}

theorem EndsWithin.endsAs (h : s.EndsWithin content ending) : s.EndsAs content ending := by
  have hnone := h []
  rwa [List.append_nil, List.append_nil] at hnone

/-- A content has one ending. -/
theorem EndsAs.unique {other : Ending α} (h : s.EndsAs content ending)
    (hother : s.EndsAs content other) : ending = other := by
  obtain ⟨script, hscript, hends, hcontent⟩ := Script.exists_content content
  obtain ⟨time, rest, log, hrun, hunread, hwritten⟩ := @h 0 script hscript hends hcontent
  obtain ⟨_, _, _, hrun', hunread', hwritten'⟩ := @hother 0 script hscript hends hcontent
  rw [hrun] at hrun'
  injection hrun' with hresult _ hrest
  subst hrest
  obtain ⟨result, unread, written⟩ := ending
  obtain ⟨result', unread', written'⟩ := other
  cases show result = result' from hresult
  cases show unread = unread' from hunread.symm.trans hunread'
  cases show written = written' from List.append_cancel_left (hwritten.symm.trans hwritten')
  rfl

theorem endsAs_done (value : α) (content : Bytes) :
    (done value).EndsAs content ⟨value, content, []⟩ := by
  intro now script _ _ hcontent
  exact ⟨now, script, [], rfl, hcontent, (List.append_nil _).symm⟩

/-- **Sequencing**: the second session finds what the first one leaves. -/
theorem EndsAs.bind {f : α → Session β} {second : Ending β} (hs : s.EndsAs content ending)
    (hf : (f ending.result).EndsAs ending.unread second) :
    (s.bind f).EndsAs content { second with written := ending.written ++ second.written } := by
  intro now script hscript hends hcontent
  obtain ⟨time, between, log, hrun, hunread, hwritten⟩ := @hs now script hscript hends hcontent
  obtain ⟨hbetween, hsame⟩ := run_keeps none s now hscript
  rw [hrun] at hbetween hsame
  obtain ⟨last, rest, more, hrun', hunread', hwritten'⟩ :=
    @hf time between hbetween (hsame.trans hends) hunread
  refine ⟨last, rest, log ++ more, ?_, hunread', ?_⟩
  · rw [run_bind_of_finished hrun, hrun', foldr_logged_finished]
  · rw [hwritten', hwritten, List.append_assoc]

/-- An answer that is only put into other words. -/
theorem EndsAs.bind_done {f : α → Session β} {answer : β} (hs : s.EndsAs content ending)
    (hf : f ending.result = .done answer) :
    (s.bind f).EndsAs content ⟨answer, ending.unread, ending.written⟩ := by
  have hbind := hs.bind (hf ▸ endsAs_done answer ending.unread)
  rwa [List.append_nil] at hbind

/-! ## Loops over single requests -/

/-- A read of a stream with nothing on it gets nothing. -/
theorem read_nothing {script : Script} (hscript : script.Obliging) (hends : script.ends = true)
    (hcontent : script.content = []) {size : Nat} (hsize : 0 < size) (now : Nat) :
    ∃ time events, script.read size now = .ready time (.ok []) events ∧
      Script.contentOf events = [] := by
  obtain ⟨time, answer, events, hread⟩ := @Script.readEvents_answers _ size _ now hscript.reads hends
  obtain ⟨bytes, rfl⟩ := Script.readEvents_ok hscript.reads hread
  have hanswer : script.read size now = .ready time (.ok bytes) events := by
    rw [Script.read, if_neg (Nat.ne_of_gt hsize)]
    exact hread
  have hdelivers := (Script.read_delivers hanswer).1
  rw [hcontent] at hdelivers
  obtain ⟨rfl, hrest⟩ := List.append_eq_nil_iff.mp hdelivers.symm
  exact ⟨time, events, hanswer, hrest⟩

/-- A loop of reads that is sent too little takes it all and fails. -/
theorem readMore_short :
    ∀ {fuel need : Nat} {collected content : Bytes}, need ≤ fuel → content.length < need →
      (readMore fuel need collected).EndsAs content ⟨.error .earlyEof, [], []⟩ := by
  intro fuel
  induction fuel with
  | zero =>
    intro need collected content hfuel hshort
    omega
  | succ fuel ih =>
    intro need collected content hfuel hshort now script hscript hends hcontent
    cases need with
    | zero => omega
    | succ need =>
      by_cases hnil : content = []
      · obtain ⟨time, events, hread, hrest⟩ :=
          read_nothing hscript hends (hcontent.trans hnil) (Nat.succ_pos need) now
        refine ⟨time, { script with events }, [], ?_, hrest, (List.append_nil _).symm⟩
        rw [readMore, run, hread]
        rfl
      · obtain ⟨time, front, events, hread, hfront, _, hcut, hrest⟩ :=
          hscript.read (Nat.succ_pos need) (hcontent.symm ▸ hnil) now
        have hsame := (hscript.read_keeps hread).2
        have hpos := List.length_pos_iff.mpr hfront
        have hless : (Script.contentOf events).length < need + 1 - front.length := by
          rw [← hcontent, hcut, List.length_append] at hshort
          omega
        rw [readMore, run, hread]
        cases front with
        | nil => exact absurd rfl hfront
        | cons b front => exact ih (by omega) hless hrest (hsame.trans hends) rfl

/-- A byte that is missing. -/
theorem readByte_short : readByte.EndsAs [] ⟨.error .unexpectedEof, [], []⟩ := by
  intro now script hscript hends hcontent
  obtain ⟨time, events, hread, hrest⟩ := read_nothing hscript hends hcontent Nat.one_pos now
  refine ⟨time, { script with events }, [], ?_, hrest, (List.append_nil _).symm⟩
  rw [readByte, run, hread]
  rfl

/-- A session that follows a protocol ends where the protocol does. -/
theorem Follows.endsWithin {acts : List Act} {value : α} (h : s.Follows acts value)
    (rest : Bytes) : s.EndsWithin (Act.taken acts ++ rest) ⟨value, rest, Act.sent acts⟩ := by
  intro more now script hscript _ hcontent
  rw [List.append_assoc] at hcontent
  obtain ⟨time, after, log, hrun, hunread, hwritten, _⟩ := h.run now hscript hcontent
  exact ⟨time, after, log, hrun, hunread, hwritten⟩

end Session

namespace Handshake

variable {α β : Type} {content : Bytes}

/-! ## Endings of handshakes -/

/-- An ending with a value is described by what the handshake ensures. -/
theorem Ensures.of_endsAs {x : Handshake α} {post : Bytes → Bytes → α → Prop} {a : α}
    {ending : Ending (Except ProxyError α)} (hx : x.Ensures post)
    (h : x.session.EndsAs content ending) (hresult : ending.result = .ok a) :
    ∃ taken, content = taken ++ ending.unread ∧ post taken ending.written a := by
  obtain ⟨script, hscript, hends, rfl⟩ := Script.exists_content content
  obtain ⟨time, rest, log, hrun, hunread, hwritten⟩ := @h 0 script hscript hends rfl
  rw [hresult] at hrun
  obtain ⟨taken, given, hcontent, hreceived, hpost⟩ := hx hrun
  rw [List.append_cancel_left (hreceived.symm.trans hwritten)] at hpost
  exact ⟨taken, hunread ▸ hcontent, hpost⟩

theorem endsAs_bind_ok {x : Handshake α} {f : α → Handshake β} {a : α} {unread written : Bytes}
    {ending : Ending (Except ProxyError β)}
    (hx : x.session.EndsAs content ⟨.ok a, unread, written⟩)
    (hf : (f a).session.EndsAs unread ending) :
    (x >>= f).session.EndsAs content { ending with written := written ++ ending.written } := by
  rw [session_bind]
  exact hx.bind hf

theorem endsAs_bind_error {x : Handshake α} {error : ProxyError} {unread written : Bytes}
    (hx : x.session.EndsAs content ⟨.error error, unread, written⟩) (f : α → Handshake β) :
    (x >>= f).session.EndsAs content ⟨.error error, unread, written⟩ := by
  rw [session_bind]
  exact hx.bind_done rfl

/-- A failure behind a part that wrote nothing. -/
theorem endsAs_bind_fails {x : Handshake α} {f : α → Handshake β} {a : α} {error : ProxyError}
    {between unread : Bytes} (hx : x.session.EndsAs content ⟨.ok a, between, []⟩)
    (hf : (f a).session.EndsAs between ⟨.error error, unread, []⟩) :
    (x >>= f).session.EndsAs content ⟨.error error, unread, []⟩ :=
  endsAs_bind_ok hx hf

/-- The failure of the stream is that of the handshake. -/
theorem endsAs_ofIo_error {session : Session (Except IoError α)} {error : IoError}
    {unread written : Bytes} (h : session.EndsAs content ⟨.error error, unread, written⟩) :
    (ofIo session).session.EndsAs content ⟨.error (.io error), unread, written⟩ :=
  h.bind_done rfl

/-- Another wording for failures is one for those of the endings. -/
theorem endsAs_adapt {x : Handshake α} {ending : Ending (Except ProxyError α)}
    (hx : x.session.EndsAs content ending) (explain : ProxyError → ProxyError) :
    (session (ExceptT.adapt explain x)).EndsAs content
      { ending with result := ending.result.mapError explain } :=
  hx.bind_done rfl

/-! ## Decisions -/

/-- Every content has an ending. It is decided within the content or it is a failure of the stream,
and the relation holds between the content, the accepted bytes and the error of every failure. -/
def Decides (x : Handshake α) (fails : Bytes → Bytes → ProxyError → Prop) : Prop :=
  ∀ content, ∃ ending : Ending (Except ProxyError α),
    (∀ error, ending.result = .error error → fails content ending.written error) ∧
    (x.session.EndsWithin content ending ∨
      x.session.EndsAs content ending ∧ ∃ cause, ending.result = .error (.io cause))

variable {fails : Bytes → Bytes → ProxyError → Prop}

/-- Every content has an ending, and its failure is as described. -/
theorem Decides.exists_endsAs {x : Handshake α} (hx : x.Decides fails) (content : Bytes) :
    ∃ ending, x.session.EndsAs content ending ∧
      ∀ error, ending.result = .error error → fails content ending.written error := by
  obtain ⟨ending, hfails, hends⟩ := hx content
  exact ⟨ending, hends.elim Session.EndsWithin.endsAs And.left, hfails⟩

theorem Decides.mono {x : Handshake α} {weaker : Bytes → Bytes → ProxyError → Prop}
    (hx : x.Decides fails)
    (h : ∀ content written error, fails content written error → weaker content written error) :
    x.Decides weaker := by
  intro content
  obtain ⟨ending, hfails, hends⟩ := hx content
  exact ⟨ending, fun error herror => h _ _ _ (hfails error herror), hends⟩

/-- **Sequencing**: the whole fails where the first part does, or behind what that took and gave. -/
theorem Decides.bind {x : Handshake α} {f : α → Handshake β}
    {whole : Bytes → Bytes → ProxyError → Prop} {post : Bytes → Bytes → α → Prop}
    (hx : x.Decides fails) (hensures : x.Ensures post)
    (hfails : ∀ content written error, fails content written error → whole content written error)
    (hf : ∀ front sent a, post front sent a →
      (f a).Decides fun back more error => whole (front ++ back) (sent ++ more) error) :
    (x >>= f).Decides whole := by
  intro content
  obtain ⟨⟨result, unread, written⟩, herrors, hends⟩ := hx content
  cases result with
  | error error =>
    refine ⟨⟨.error error, unread, written⟩, ?_, ?_⟩
    · rintro _ ⟨⟩
      exact hfails _ _ _ (herrors error rfl)
    · obtain hwithin | ⟨hends, hcause⟩ := hends
      · exact .inl fun more => endsAs_bind_error (hwithin more) f
      · refine .inr ⟨endsAs_bind_error hends f, ?_⟩
        obtain ⟨cause, hcause⟩ := hcause
        cases hcause
        exact ⟨cause, rfl⟩
  | ok a =>
    obtain hwithin | ⟨_, _, hcause⟩ := hends
    · obtain ⟨front, rfl, hpost⟩ := hensures.of_endsAs hwithin.endsAs rfl
      obtain ⟨ending, herrors', hends'⟩ := hf front written a hpost unread
      refine ⟨{ ending with written := written ++ ending.written }, herrors', ?_⟩
      obtain hwithin' | ⟨hends', hcause⟩ := hends'
      · exact .inl fun more => endsAs_bind_ok (hwithin more) (hwithin' more)
      · exact .inr ⟨endsAs_bind_ok hwithin.endsAs hends', hcause⟩
    · cases hcause

/-- **What is cut short fails with the stream**: if a handshake takes just some bytes, it fails with
the stream on every first part of them. -/
theorem Decides.of_isPrefix {x : Handshake α} {whole written : Bytes} {a : α}
    {ending : Ending (Except ProxyError α)} (hx : x.Decides fails)
    (hwhole : x.session.EndsAs whole ⟨.ok a, [], written⟩) (hfront : content <+: whole)
    (hne : content ≠ whole) (hends : x.session.EndsAs content ending) :
    ∃ cause, ending.result = .error (.io cause) ∧ fails content ending.written (.io cause) := by
  obtain ⟨found, herrors, hwithin | ⟨hsame, cause, hcause⟩⟩ := hx content
  · obtain ⟨more, rfl⟩ := hfront
    -- the ending would be the same with the bytes that are missing, and leave them unread
    have hnil := congrArg Ending.unread ((hwithin more).unique hwhole)
    obtain ⟨_, rfl⟩ := List.append_eq_nil_iff.mp hnil
    exact absurd (List.append_nil content).symm hne
  · rw [hends.unique hsame]
    exact ⟨cause, hcause, herrors _ hcause⟩

/-! ## Parts of handshakes -/

/-- A handshake that only sends does not fail. -/
theorem Follows.decides {x : Handshake α} {bytes : Bytes} {a : α}
    (h : x.Follows (Act.sends bytes) a) : x.Decides fails := by
  intro content
  have hwithin := Session.Follows.endsWithin h content
  rw [Act.taken_sends] at hwithin
  refine ⟨_, ?_, .inl hwithin⟩
  rintro error ⟨⟩

/-- Behind what only sends, the same bytes are to come and more was accepted. -/
theorem Decides.behind {x : Handshake α} {f : α → Handshake β} {a : α} (data : Bytes)
    (hx : x.Follows (Act.sends data) a)
    (hf : (f a).Decides fun content written error => fails content (data ++ written) error) :
    (x >>= f).Decides fails := by
  intro content
  have hfirst := Session.Follows.endsWithin hx
  simp only [Act.taken_sends, Act.sent_sends, List.nil_append] at hfirst
  obtain ⟨ending, herrors, hends⟩ := hf content
  refine ⟨{ ending with written := data ++ ending.written }, herrors, ?_⟩
  obtain hwithin | ⟨hends, hcause⟩ := hends
  · exact .inl fun more => endsAs_bind_ok (hfirst content more) (hwithin more)
  · exact .inr ⟨endsAs_bind_ok (hfirst content).endsAs hends, hcause⟩

theorem decides_pure (a : α) : (pure a : Handshake α).Decides fails := by
  have hfollows : (pure a : Handshake α).Follows (Act.sends []) a := follows_pure a
  exact hfollows.decides

theorem decides_writeAll (data : Bytes) : (writeAll data).Decides fails :=
  (follows_writeAll data).decides

theorem decides_throw {error : ProxyError} (h : ∀ content, fails content [] error) :
    (throw error : Handshake α).Decides fails := by
  intro content
  refine ⟨⟨.error error, content, []⟩, ?_, .inl fun more => Session.endsAs_done _ _⟩
  rintro _ ⟨⟩
  exact h content

/-- Too few bytes are all taken. -/
theorem endsAs_readExact_short {count : Nat} (h : content.length < count) :
    (readExact count).session.EndsAs content ⟨.error (.io .earlyEof), [], []⟩ :=
  endsAs_ofIo_error (Session.readMore_short (Nat.le_refl count) h)

theorem endsAs_readByte_short :
    readByte.session.EndsAs [] ⟨.error (.io .unexpectedEof), [], []⟩ :=
  endsAs_ofIo_error Session.readByte_short

theorem endsWithin_readByte (b : UInt8) (rest : Bytes) :
    readByte.session.EndsWithin (b :: rest) ⟨.ok b, rest, []⟩ := by
  have hwithin := Session.Follows.endsWithin (follows_readByte b) rest
  rwa [Act.taken_takes] at hwithin

/-- Exactly so many bytes are missing some only if the stream ends too early. -/
theorem decides_readExact (count : Nat) :
    (readExact count).Decides fun content written error =>
      content.length < count ∧ written = [] ∧ error = .io .earlyEof := by
  intro content
  by_cases hshort : content.length < count
  · refine ⟨_, ?_, .inr ⟨endsAs_readExact_short hshort, _, rfl⟩⟩
    rintro _ ⟨⟩
    exact ⟨hshort, rfl, rfl⟩
  · have hlength : (content.take count).length = count := List.length_take_of_le (by omega)
    have hfollows := follows_readExact count _ hlength
    have hwithin := Session.Follows.endsWithin hfollows (content.drop count)
    rw [Act.taken_takes, List.take_append_drop] at hwithin
    refine ⟨_, ?_, .inl hwithin⟩
    rintro error ⟨⟩

theorem decides_readByte :
    readByte.Decides fun content written error =>
      content = [] ∧ written = [] ∧ error = .io .unexpectedEof := by
  intro content
  cases content with
  | nil =>
    refine ⟨_, ?_, .inr ⟨endsAs_readByte_short, _, rfl⟩⟩
    rintro _ ⟨⟩
    exact ⟨rfl, rfl, rfl⟩
  | cons b content =>
    refine ⟨_, ?_, .inl (endsWithin_readByte b content)⟩
    rintro error ⟨⟩

/-! ## Failures before anything was written -/

/-- Nothing was written, and a failure of the stream is that it ended too early. -/
def Untold (_content written : Bytes) (error : ProxyError) : Prop :=
  written = [] ∧ ∀ cause, error = .io cause → cause.isEndOfStream = true

theorem decides_readExact_untold (count : Nat) : (readExact count).Decides Untold := by
  refine (decides_readExact count).mono ?_
  rintro _ _ _ ⟨-, rfl, rfl⟩
  refine ⟨rfl, ?_⟩
  rintro _ ⟨⟩
  rfl

theorem decides_readByte_untold : readByte.Decides Untold := by
  refine decides_readByte.mono ?_
  rintro _ _ _ ⟨-, rfl, rfl⟩
  refine ⟨rfl, ?_⟩
  rintro _ ⟨⟩
  rfl

end Handshake

end SniffProxy
