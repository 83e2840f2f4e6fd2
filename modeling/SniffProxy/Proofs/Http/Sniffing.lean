import Mathlib.Data.List.TakeWhile
import Mathlib.Order.Bounds.Basic
import SniffProxy.Proofs.Http.Scanning
import SniffProxy.Proofs.Stream.Peeking
import SniffProxy.Proofs.Stream.Waiting

/-!
# Sniffing depends on the bytes

The sniffer scans all that it has read after every read. When it stops therefore depends on how the
stream is cut into reads; what it answers does not, because a verdict on some bytes lasts.

* `Sniffed` — the ways in which sniffing a stream without failures ends, or is left waiting.
* `sniff_run` — each run of the sniffer goes one of these ways.
* `sniff_cut_free` — the answer from the bytes of a stream alone.
-/

namespace SniffProxy.Http

/-! ## What is decided -/

/-- Whether a head is found in the bytes, or proof that there is none. -/
def Decided (bytes : Bytes) : Prop :=
  judge bytes ≠ none

theorem not_decided_iff {bytes : Bytes} : ¬ Decided bytes ↔ judge bytes = none :=
  not_not

theorem decided_iff {bytes : Bytes} : Decided bytes ↔ ∃ result, judge bytes = some result :=
  Option.ne_none_iff_exists'

theorem Decided.of_beginning {front bytes : Bytes} (h : Decided front) (hbegins : front <+: bytes) :
    Decided bytes := by
  obtain ⟨result, hresult⟩ := decided_iff.mp h
  exact decided_iff.mpr ⟨result, judge_of_beginning hresult hbegins⟩

/-- A method that goes on and on decides nothing. -/
theorem not_decided_of_token {bytes : Bytes} (h : ∀ b ∈ bytes, isTokenByte b = true) :
    ¬ Decided bytes := by
  rw [not_decided_iff]
  cases bytes with
  | nil => rfl
  | cons b rest =>
    have hb := h b List.mem_cons_self
    have hcr : b ≠ cr := by
      rintro rfl
      exact absurd hb (by decide)
    have hlf : b ≠ lf := by
      rintro rfl
      exact absurd hb (by decide)
    have hnothing : (b :: rest).dropWhile isTokenByte = [] := List.dropWhile_eq_nil_iff.mpr h
    simp only [judge, Head.scan, skipEmptyLines_of_ne hcr hlf, Scan.andThen, scanMethod, hnothing]

/-- A sniffing failure with this wording. -/
def FailsWith (text : String) (result : Except ProxyError HostPort) : Prop :=
  ∃ fault, result = .error (.sniffParse fault) ∧ fault.message = text

/-! ## Runs -/

/-- What may become of sniffing a stream of these bytes that has no failures. The head is judged, or
too large, or the stream is over before it, or it is still to come. -/
inductive Sniffed (bytes : Bytes) (ends : Bool) : Outcome (Except ProxyError HostPort × Peek) → Prop
  | judged {peek : Peek} {result : Except ProxyError HostPort} {time : Nat} {rest : Script}
      {log : List LogEvent} (hread : peek.buffer <+: bytes)
      (hlength : peek.buffer.length < maxHeadSize + readSize)
      (hresult : judge peek.buffer = some result) :
      Sniffed bytes ends (.finished (result, peek) time rest log)
  | tooLarge {peek : Peek} {time : Nat} {rest : Script} {log : List LogEvent}
      (hread : peek.buffer <+: bytes) (hlength : maxHeadSize ≤ peek.buffer.length)
      (hundecided : ¬ Decided peek.buffer) :
      Sniffed bytes ends (.finished (.error (.sniffParse .headTooLarge), peek) time rest log)
  | closed {peek : Peek} {time : Nat} {rest : Script} {log : List LogEvent}
      (hlength : bytes.length < maxHeadSize) (hundecided : ¬ Decided bytes) :
      Sniffed bytes ends (.finished (.error (.sniffParse .closedBeforeHead), peek) time rest log)
  | waiting {rest : Script} {log : List LogEvent} (hends : ends = false)
      (hlength : bytes.length < maxHeadSize) (hundecided : ¬ Decided bytes) :
      Sniffed bytes ends (.waiting rest log)

/-- A peek with which the sniffer goes on: it records, and what it has recorded is too little. -/
structure Listening (peek : Peek) : Prop where
  recording : peek.recording = true
  notReplaying : peek.replaying = false
  undecided : ¬ Decided peek.buffer
  small : peek.buffer.length < maxHeadSize

theorem listening_start : Listening .start where
  recording := rfl
  notReplaying := rfl
  undecided := not_decided_iff.mpr rfl
  small := by decide

/-- One round of a sniffer that goes on is a read of the stream. -/
theorem Listening.sniffMore_eq {peek : Peek} (h : Listening peek) (fuel : Nat) :
    sniffMore (fuel + 1) peek = .read readSize fun answer =>
      match answer with
      | .error error => .done (.error (.io error), peek)
      | .ok [] => .done (.error (.sniffParse .closedBeforeHead), peek)
      | .ok (b :: bytes) =>
        let peek := { peek with buffer := peek.buffer ++ b :: bytes }
        match judge peek.buffer with
        | some result => .done (result, peek)
        | none =>
          if maxHeadSize ≤ peek.buffer.length then .done (.error (.sniffParse .headTooLarge), peek)
          else sniffMore fuel peek := by
  have hserve : peek.serve readSize = none :=
    Peek.serve_eq_none (fun hreplaying => by rw [h.notReplaying] at hreplaying; cases hreplaying) _
  have hrecord : ∀ bytes, peek.record (.ok bytes) = { peek with buffer := peek.buffer ++ bytes } :=
    fun bytes => if_pos h.recording
  rw [sniffMore, Peek.read, hserve]
  refine congrArg (Session.read readSize) (funext fun answer => ?_)
  cases answer with
  | error error => rfl
  | ok bytes =>
    simp only [hrecord, Session.bind]
    cases bytes with
    | nil => rw [List.append_nil]
    | cons b bytes => rfl

/-- A round that leaves the sniffer listening has recorded something. -/
theorem Listening.record {peek : Peek} (h : Listening peek) {bytes : Bytes}
    (hundecided : ¬ Decided (peek.buffer ++ bytes))
    (hsmall : (peek.buffer ++ bytes).length < maxHeadSize) :
    Listening { peek with buffer := peek.buffer ++ bytes } :=
  ⟨h.recording, h.notReplaying, hundecided, hsmall⟩

/-- **The rest of a run.** What is recorded and what is still to come are the bytes of the stream. -/
theorem sniffMore_run :
    ∀ {fuel : Nat} {peek : Peek} {script : Script} (now : Nat), Listening peek →
      Script.NoFailure script.events → maxHeadSize ≤ peek.buffer.length + fuel →
      Sniffed (peek.buffer ++ script.content) script.ends
        ((sniffMore fuel peek).run none now script) := by
  intro fuel
  induction fuel with
  | zero =>
    intro peek script now hpeek _ hfuel
    exact absurd hpeek.small (by omega)
  | succ fuel ih =>
    intro peek script now hpeek hreads hfuel
    have hread : script.read readSize now =
        Script.readEvents script.afterwards readSize now script.events := rfl
    rw [hpeek.sniffMore_eq, Session.run, hread]
    cases hanswer : Script.readEvents script.afterwards readSize now script.events with
    | never =>
      have hnothing : script.content = [] := Script.contentOf_of_never hanswer
      have hends : script.ends = false := Script.not_endsAfter_of_never hreads hanswer
      rw [hnothing, List.append_nil]
      exact .waiting hends hpeek.small hpeek.undecided
    | ready time answer events =>
      obtain ⟨hkept, hends⟩ := Script.readEvents_keeps hreads hanswer
      obtain ⟨bytes, rfl⟩ := Script.readEvents_ok hreads hanswer
      obtain ⟨hcontent, hlength, hlast⟩ := Script.readEvents_delivers hanswer
      have hall : script.content = bytes ++ Script.contentOf events := hcontent
      simp only [isLate, Bool.false_eq_true, if_false]
      cases bytes with
      | nil =>
        have hnothing : script.content = [] := by
          rw [hall, hlast rfl (by decide)]
          rfl
        rw [hnothing, List.append_nil]
        exact .closed hpeek.small hpeek.undecided
      | cons b bytes =>
        have hread : peek.buffer ++ b :: bytes <+: peek.buffer ++ script.content := by
          rw [hall, ← List.append_assoc]
          exact List.prefix_append _ _
        have hsmall := hpeek.small
        dsimp only
        split
        · rename_i result hresult
          refine .judged hread ?_ hresult
          rw [List.length_append]
          omega
        · rename_i hundecided
          split
          · rename_i hlarge
            exact .tooLarge hread hlarge (not_decided_iff.mpr hundecided)
          · rename_i hsmall
            have hnext := hpeek.record (not_decided_iff.mpr hundecided) (Nat.lt_of_not_le hsmall)
            have hfuel' : maxHeadSize ≤ (peek.buffer ++ b :: bytes).length + fuel := by
              rw [List.length_append, List.length_cons]
              omega
            have hrest := @ih _ { script with events } time hnext hkept hfuel'
            have hsame : peek.buffer ++ b :: bytes ++ Script.contentOf events =
                peek.buffer ++ script.content := by
              rw [hall, List.append_assoc]
            have hends' : Script.ends { script with events } = script.ends := hends
            rw [hends'] at hrest
            exact hsame ▸ hrest

/-- **Every run of the sniffer** on a stream without failures. -/
theorem sniff_run {script : Script} (hreads : Script.NoFailure script.events) (now : Nat) :
    Sniffed script.content script.ends ((sniff .start).run none now script) :=
  sniffMore_run now listening_start hreads (by decide)

/-! ## The answer -/

/-- Sniffing this stream comes to this answer, whenever it begins. -/
def Answers (script : Script) (result : Except ProxyError HostPort) : Prop :=
  ∀ now, ∃ peek time rest log,
    (sniff .start).run none now script = .finished (result, peek) time rest log

/-- However these bytes are cut into reads and whenever they come, sniffing a stream that ends behind
them comes to this answer. -/
def SniffedAs (bytes : Bytes) (result : Except ProxyError HostPort) : Prop :=
  ∀ script : Script, Script.NoFailure script.events → script.ends = true → script.content = bytes →
    Answers script result

variable {script : Script} {front : Bytes} {result : Except ProxyError HostPort}

/-- **A head that is decided in time** is what the answer is about. -/
theorem answers_of_judge (hreads : Script.NoFailure script.events) (hfront : front <+: script.content)
    (hlength : front.length ≤ maxHeadSize) (hresult : judge front = some result) :
    Answers script result := by
  have hdecided : Decided front := decided_iff.mpr ⟨result, hresult⟩
  intro now
  have hrun := sniff_run hreads now
  generalize (sniff .start).run none now script = outcome at hrun ⊢
  cases hrun with
  | judged hread _ hother =>
    have hsame : some result = some _ :=
      (judge_of_beginning hresult hfront).symm.trans (judge_of_beginning hother hread)
    cases hsame
    exact ⟨_, _, _, _, rfl⟩
  | tooLarge hread hlarge hundecided =>
    have hwithin := List.prefix_of_prefix_length_le hfront hread (hlength.trans hlarge)
    exact absurd (hdecided.of_beginning hwithin) hundecided
  | closed _ hundecided => exact absurd (hdecided.of_beginning hfront) hundecided
  | waiting _ _ hundecided => exact absurd (hdecided.of_beginning hfront) hundecided

/-- A stream that ends too soon. -/
theorem answers_closed (hreads : Script.NoFailure script.events) (hends : script.ends = true)
    (hlength : script.content.length < maxHeadSize) (hundecided : ¬ Decided script.content) :
    Answers script (.error (.sniffParse .closedBeforeHead)) := by
  intro now
  have hrun := sniff_run hreads now
  generalize (sniff .start).run none now script = outcome at hrun ⊢
  cases hrun with
  | judged hread _ hresult =>
    exact absurd (decided_iff.mpr ⟨_, judge_of_beginning hresult hread⟩) hundecided
  | tooLarge hread hlarge _ =>
    have hle := hread.length_le
    omega
  | closed _ _ => exact ⟨_, _, _, _, rfl⟩
  | waiting hopen _ _ =>
    rw [hends] at hopen
    cases hopen

/-- A stream whose head is too large. -/
theorem answers_tooLarge (hreads : Script.NoFailure script.events)
    (hlength : maxHeadSize ≤ script.content.length)
    (hundecided : ∀ front, front <+: script.content → front.length < maxHeadSize + readSize →
      ¬ Decided front) :
    Answers script (.error (.sniffParse .headTooLarge)) := by
  intro now
  have hrun := sniff_run hreads now
  generalize (sniff .start).run none now script = outcome at hrun ⊢
  cases hrun with
  | judged hread hsmall hresult =>
    exact absurd (decided_iff.mpr ⟨_, hresult⟩) (hundecided _ hread hsmall)
  | tooLarge _ _ _ => exact ⟨_, _, _, _, rfl⟩
  | closed hsmall _ => omega
  | waiting _ hsmall _ => omega

/-- **Sniffing depends on the bytes, not on their packets.** If the shortest decided beginning of a
stream is not larger than a head may be, the answer is what this beginning says. A stream that ends
undecided before it is as large is closed too soon. One of which even as much is undecided as can be
read before the size is looked at holds too large a head. -/
theorem sniff_depends_on_bytes (bytes : Bytes) :
    (∀ size, IsLeast { n | Decided (bytes.take n) } size → size ≤ 16384 →
        ∃ result, judge (bytes.take size) = some result ∧ SniffedAs bytes result) ∧
      ((∀ n, ¬ Decided (bytes.take n)) → bytes.length < 16384 →
        ∃ result, FailsWith "connection closed before request head" result ∧
          SniffedAs bytes result) ∧
      (18431 ≤ bytes.length → (∀ n ≤ 18431, ¬ Decided (bytes.take n)) →
        ∃ result, FailsWith "request head too large" result ∧ SniffedAs bytes result) := by
  refine ⟨?_, ?_, ?_⟩
  · rintro size ⟨hdecided, -⟩ hsize
    obtain ⟨result, hresult⟩ := decided_iff.mp hdecided
    refine ⟨result, hresult, fun script hreads _ hcontent => ?_⟩
    refine answers_of_judge hreads ?_ ?_ hresult
    · rw [hcontent]
      exact List.take_prefix size bytes
    · exact (List.length_take_le size bytes).trans hsize
  · intro hundecided hlength
    refine ⟨.error (.sniffParse .closedBeforeHead), ⟨_, rfl, rfl⟩, ?_⟩
    intro script hreads hends hcontent
    refine answers_closed hreads hends (hcontent ▸ hlength) ?_
    have hall := hundecided bytes.length
    rwa [List.take_length, ← hcontent] at hall
  · intro hlength hundecided
    refine ⟨.error (.sniffParse .headTooLarge), ⟨_, rfl, rfl⟩, ?_⟩
    intro script hreads _ hcontent
    refine answers_tooLarge hreads ?_ fun front hfront hsmall => ?_
    · have hsize : maxHeadSize = 16384 := rfl
      rw [hcontent]
      omega
    · have hsizes : maxHeadSize + readSize = 18432 := rfl
      have htake : front = bytes.take front.length := by
        rw [← hcontent]
        exact List.prefix_iff_eq_take.mp hfront
      rw [htake]
      exact hundecided front.length (by omega)

/-- A head before bytes that could be taken for another one, a head that breaks off, and a method
without end. -/
theorem sniff_depends_on_bytes_examples :
    SniffedAs (utf8 "GET / HTTP/1.1\r\nHost: a\r\n\r\nHost: b\r\n\r\n") (.ok ⟨"a", 80⟩) ∧
      (∃ result, FailsWith "connection closed before request head" result ∧
        SniffedAs (utf8 "GET / HTTP/1.1\r\nHost: a\r\n") result) ∧
      ∃ result, FailsWith "request head too large" result ∧
        SniffedAs (List.replicate 20000 0x41) result := by
  let whole : Bytes := utf8 "GET / HTTP/1.1\r\nHost: a\r\n\r\nHost: b\r\n\r\n"
  have hbefore : judge (whole.take 26) = none := by rfl
  have hjudge : judge (whole.take 27) = some (.ok ⟨"a", 80⟩) := by rfl
  have hleast : IsLeast { n | Decided (whole.take n) } 27 := by
    refine ⟨decided_iff.mpr ⟨_, hjudge⟩, fun n hn => ?_⟩
    by_contra hless
    have hwithin : whole.take n <+: whole.take 26 := List.take_prefix_take_left (by omega)
    exact Decided.of_beginning hn hwithin hbefore
  have hbroken : judge (utf8 "GET / HTTP/1.1\r\nHost: a\r\n") = none := by rfl
  have hendless : ∀ n, ¬ Decided ((List.replicate 20000 0x41).take n) := by
    intro n
    refine not_decided_of_token fun b hb => ?_
    rw [List.take_replicate] at hb
    rw [List.eq_of_mem_replicate hb]
    decide
  obtain ⟨result, hresult, hsniffed⟩ := (sniff_depends_on_bytes whole).1 27 hleast (by decide)
  rw [hjudge] at hresult
  cases hresult
  refine ⟨hsniffed, (sniff_depends_on_bytes _).2.1 (fun n hn => ?_) (by decide),
    (sniff_depends_on_bytes _).2.2 ?_ fun n _ => hendless n⟩
  · exact Decided.of_beginning hn (List.take_prefix n _) hbroken
  · rw [List.length_replicate]
    omega

end SniffProxy.Http
