import SniffProxy.Proofs.Http.Sniffing
import SniffProxy.Proofs.Stream.Exchange

/-!
# Sniffing is bounded

The sniffer looks at the size of what it has recorded only after a read and after judging it, so its
bounds come from an invariant of its loop: it goes on only with fewer bytes than the largest head,
and every read that lets it go on has added one. This holds on every stream, also on one that never
ends, fails, or delivers its bytes one by one.

* `Ends` — the four ways in which the sniffer ends.
* `Listened` — what a run of the loop did; `sniffMore_listened`, by induction over the rounds.
* `sniffMore_allowance` — the allowance of rounds is never used up.
* `sniff_bounded` — the bounds, and a copy from which the stream is restored.
-/

namespace SniffProxy.Http

/-- How the sniffer ends with these recorded bytes, by the answer of its last read. It gives a head
up as too large only if the bytes are as many as the largest head. -/
inductive Ends (recorded : Bytes) : Except IoError Bytes → Except ProxyError HostPort → Prop
  | failed (error : IoError) : Ends recorded (.error error) (.error (.io error))
  | closed : Ends recorded (.ok []) (.error (.sniffParse .closedBeforeHead))
  | judged {b : UInt8} {bytes : Bytes} {result : Except ProxyError HostPort}
      (hresult : judge recorded = some result) : Ends recorded (.ok (b :: bytes)) result
  | tooLarge {b : UInt8} {bytes : Bytes} (hundecided : judge recorded = none)
      (hlarge : maxHeadSize ≤ recorded.length) :
      Ends recorded (.ok (b :: bytes)) (.error (.sniffParse .headTooLarge))

/-- The calls of a sniffer: reads that delivered something, and a last one with which it ends. -/
def Reads (recorded : Bytes) (calls : List Call) (result : Except ProxyError HostPort) : Prop :=
  ∃ front last, calls = front ++ [.read readSize last] ∧
    (∀ call ∈ front, ∃ b bytes, call = .read readSize (.ok (b :: bytes))) ∧
    Ends recorded last result

/-- Every call of a sniffer is a read of the same size: it writes nothing. -/
theorem Reads.exists_answer {recorded : Bytes} {calls : List Call}
    {result : Except ProxyError HostPort} (h : Reads recorded calls result) {call : Call}
    (hcall : call ∈ calls) : ∃ answer, call = .read readSize answer := by
  obtain ⟨front, last, rfl, hfront, -⟩ := h
  obtain hcall | hcall := List.mem_append.mp hcall
  · obtain ⟨b, bytes, rfl⟩ := hfront call hcall
    exact ⟨_, rfl⟩
  · exact ⟨_, List.mem_singleton.mp hcall⟩

/-- What the loop did that began with one peek and ended with another. -/
structure Listened (before : Peek) (calls : List Call) (result : Except ProxyError HostPort)
    (after : Peek) : Prop where
  recording : after.recording = true
  notReplaying : after.replaying = false
  recorded : after.buffer = before.buffer ++ calls.flatMap Call.taken
  reads : Reads after.buffer calls result
  rounds : before.buffer.length + calls.length ≤ maxHeadSize
  size : after.buffer.length < maxHeadSize + readSize

/-- A round after which the loop ends. -/
theorem Listening.listened_last {peek after : Peek} (h : Listening peek)
    {answer : Except IoError Bytes} {result : Except ProxyError HostPort}
    (hafter : after = { peek with buffer := peek.buffer ++ answerBytes answer })
    (hfits : (answerBytes answer).length ≤ readSize) (hends : Ends after.buffer answer result) :
    Listened peek [.read readSize answer] result after := by
  subst hafter
  have hsmall := h.small
  refine ⟨h.recording, h.notReplaying, ?_, ⟨[], answer, rfl, nofun, hends⟩, hsmall, ?_⟩
  · rw [List.flatMap_singleton]
    rfl
  · rw [List.length_append]
    omega

/-- A round after which the loop goes on. -/
theorem Listened.after_round {peek after : Peek} {b : UInt8} {bytes : Bytes} {calls : List Call}
    {result : Except ProxyError HostPort}
    (h : Listened { peek with buffer := peek.buffer ++ b :: bytes } calls result after) :
    Listened peek (.read readSize (.ok (b :: bytes)) :: calls) result after := by
  obtain ⟨front, last, rfl, hfront, hends⟩ := h.reads
  refine ⟨h.recording, h.notReplaying, ?_, ?_, ?_, h.size⟩
  · rw [h.recorded, List.flatMap_cons, ← List.append_assoc]
    rfl
  · exact ⟨_ :: front, last, rfl, List.forall_mem_cons.mpr ⟨⟨b, bytes, rfl⟩, hfront⟩, hends⟩
  · have hrounds := h.rounds
    simp only [List.length_append, List.length_cons] at hrounds ⊢
    omega

/-- **What the loop does**, from any peek with which the sniffer listens and however its reads are
answered. -/
theorem sniffMore_listened :
    ∀ {fuel : Nat} {peek after : Peek} {calls : List Call} {result : Except ProxyError HostPort},
      Listening peek → maxHeadSize ≤ peek.buffer.length + fuel →
      (sniffMore fuel peek).Makes calls (result, after) → (∀ call ∈ calls, call.Fits) →
      Listened peek calls result after := by
  intro fuel
  induction fuel with
  | zero =>
    intro peek after calls result hpeek hfuel
    -- a sniffer that still listens has recorded less than the largest head
    exact absurd hpeek.small (by omega)
  | succ fuel ih =>
    intro peek after calls result hpeek hfuel hmakes hfits
    rw [hpeek.sniffMore_eq] at hmakes
    cases hmakes with
    | @read _ _ answer calls _ hmakes =>
      obtain ⟨hfit, hrest⟩ := List.forall_mem_cons.mp hfits
      cases answer with
      | error error =>
        cases hmakes
        refine hpeek.listened_last ?_ hfit (.failed error)
        simp [answerBytes]
      | ok bytes =>
        cases bytes with
        | nil =>
          cases hmakes
          refine hpeek.listened_last ?_ hfit .closed
          simp [answerBytes]
        | cons b bytes =>
          dsimp only at hmakes
          split at hmakes
          · rename_i verdict hverdict
            cases hmakes
            exact hpeek.listened_last rfl hfit (.judged hverdict)
          · rename_i hundecided
            split at hmakes
            · rename_i hlarge
              cases hmakes
              exact hpeek.listened_last rfl hfit (.tooLarge hundecided hlarge)
            · rename_i hsmall
              have hnext := hpeek.record (not_decided_iff.mpr hundecided) (Nat.lt_of_not_le hsmall)
              -- the read brought at least the one byte that pays for its round
              have hfuel' : maxHeadSize ≤ (peek.buffer ++ b :: bytes).length + fuel := by
                rw [List.length_append, List.length_cons]
                omega
              exact (ih hnext hfuel' hmakes hrest).after_round

/-- **The allowance of rounds is never used up**: any two that are large enough are the same. -/
theorem sniffMore_allowance :
    ∀ {fuel more : Nat} {peek : Peek}, Listening peek → maxHeadSize ≤ peek.buffer.length + fuel →
      maxHeadSize ≤ peek.buffer.length + more → sniffMore fuel peek = sniffMore more peek := by
  intro fuel
  induction fuel with
  | zero =>
    intro more peek hpeek hfuel
    exact absurd hpeek.small (by omega)
  | succ fuel ih =>
    intro more peek hpeek hfuel hmore
    cases more with
    | zero => exact absurd hpeek.small (by omega)
    | succ more =>
      rw [hpeek.sniffMore_eq, hpeek.sniffMore_eq]
      refine congrArg (Session.read readSize) (funext fun answer => ?_)
      cases answer with
      | error error => rfl
      | ok bytes =>
        cases bytes with
        | nil => rfl
        | cons b bytes =>
          dsimp only
          split
          · rfl
          · rename_i hundecided
            split
            · rfl
            · rename_i hsmall
              have hnext := hpeek.record (not_decided_iff.mpr hundecided) (Nat.lt_of_not_le hsmall)
              have hlength :
                  (peek.buffer ++ b :: bytes).length = peek.buffer.length + bytes.length + 1 := by
                rw [List.length_append, List.length_cons, Nat.add_assoc]
              exact ih hnext (by dsimp only; omega) (by dsimp only; omega)

/-- A bounded sniff: how many reads it made and how much it recorded, that it recorded just what it
took off the stream, however it ended, and that a replay gives all of it back. -/
structure Bounded (e : Exchange (Except ProxyError HostPort × Peek)) : Prop where
  reads : Reads e.value.2.buffer e.calls e.value.1
  rounds : e.calls.length ≤ 16384
  size : e.value.2.buffer.length ≤ 18431
  recorded : e.value.2.buffer = e.calls.flatMap Call.taken
  /-- Whoever then uses the stream through the replaying peek takes it from its first byte. -/
  restores : ∀ {β : Type} (user : Session β) (answerer : Answerer) (past : List Call),
    let later := (Peek.through user e.value.2.stop.replay).exchange answerer past
    ∃ seen, user.Makes seen later.value.1 ∧
      seen.flatMap Call.taken ++ later.value.2.buffer =
        e.calls.flatMap Call.taken ++ later.calls.flatMap Call.taken

theorem bounded_of_makes {calls : List Call} {value : Except ProxyError HostPort × Peek}
    (hmakes : (sniff .start).Makes calls value) (hfits : ∀ call ∈ calls, call.Fits) :
    Bounded ⟨calls, value⟩ := by
  obtain ⟨result, peek⟩ := value
  have hall : Listened .start calls result peek :=
    sniffMore_listened listening_start (by decide) hmakes hfits
  have hrecorded : peek.buffer = calls.flatMap Call.taken := hall.recorded
  have hrounds : calls.length ≤ 16384 := Nat.le_of_add_left_le hall.rounds
  have hsize : peek.buffer.length < 16384 + 2048 := hall.size
  refine ⟨hall.reads, hrounds, Nat.le_of_lt_succ hsize, hrecorded, fun user answerer past => ?_⟩
  have hstopped : peek.stop.replay.recording = false := rfl
  obtain ⟨seen, hseen, htaken, -⟩ := Peek.through_makes hstopped (fun _ => rfl)
    (Session.exchange_makes answerer (Peek.through user peek.stop.replay) past)
  exact ⟨seen, hseen, hrecorded ▸ htaken⟩

/-- **Sniffing is bounded.** On every stream that answers, the sniffer of a fresh connection stops
after at most 16384 reads, of which all but the last delivered something, with at most 18431 bytes
recorded: those that it took off the stream, after a failure too. So it does whenever it stops on a
scripted stream, on which it writes nothing. And no larger allowance of rounds changes anything. -/
theorem sniff_bounded :
    (∀ (answerer : Answerer) (past : List Call),
      Bounded ((sniff .start).exchange answerer past)) ∧
    (∀ {deadline : Option Nat} {now time : Nat} {script rest : Script}
        {value : Except ProxyError HostPort × Peek} {log : List LogEvent},
      (sniff .start).run deadline now script = .finished value time rest log →
      ∃ calls, Bounded ⟨calls, value⟩ ∧ script.content = calls.flatMap Call.taken ++ rest.content) ∧
    ∀ fuel ≥ 16384, sniffMore fuel .start = sniff .start := by
  refine ⟨fun answerer past => ?_, fun hrun => ?_, fun fuel hfuel => ?_⟩
  · exact bounded_of_makes (Session.exchange_makes answerer _ past)
      (Session.exchange_fits answerer (sniff .start) past)
  · obtain ⟨calls, hmakes, hfits, hcontent, -⟩ := Session.run_makes hrun
    exact ⟨calls, bounded_of_makes hmakes hfits, hcontent⟩
  · exact sniffMore_allowance listening_start (Nat.le_add_left_of_le hfuel) (by decide)

/-- A stream that goes on for ever with one and the same letter, one at a time. -/
def dripping : Answerer where
  read _ size := .ok ([0x41].take size)
  write _ _ := .ok 0
  flush _ := .ok ()
  read_fits _ size := List.length_take_le size _
  write_fits _ _ := Nat.zero_le _

/-- Here the sniffer makes as many reads as it ever does. -/
theorem sniff_bounded_dripping :
    ((sniff .start).exchange dripping []).calls.length = 16384 ∧
      ((sniff .start).exchange dripping []).value.1 = .error (.sniffParse .headTooLarge) := by
  have hbounded := sniff_bounded.1 dripping []
  have hanswer : ∀ call ∈ ((sniff .start).exchange dripping []).calls,
      ∀ answer, call = .read readSize answer → answer = .ok [0x41] := by
    refine Session.exchange_forall (fun past size answer h => ?_) (fun _ _ => nofun)
      (fun _ => nofun) _ []
    cases h
    rfl
  generalize (sniff .start).exchange dripping [] = e at hbounded hanswer ⊢
  obtain ⟨calls, result, peek⟩ := e
  obtain ⟨front, last, hcalls, hfront, hends⟩ : Reads peek.buffer calls result := hbounded.reads
  have hletter : ∀ call ∈ calls, call = .read readSize (.ok [0x41]) := by
    intro call hcall
    obtain ⟨answer, rfl⟩ := Reads.exists_answer ⟨front, last, hcalls, hfront, hends⟩ hcall
    rw [hanswer _ hcall answer rfl]
  have hrecorded : peek.buffer = List.replicate calls.length 0x41 := by
    have htaken : peek.buffer = calls.flatMap Call.taken := hbounded.recorded
    rw [htaken, List.eq_replicate_of_mem hletter, List.flatMap_replicate, List.length_replicate]
    exact List.flatten_replicate_singleton
  have hundecided : judge peek.buffer = none := by
    refine not_decided_iff.mp (not_decided_of_token fun b hb => ?_)
    rw [hrecorded] at hb
    rw [List.eq_of_mem_replicate hb]
    decide
  have hlast : last = .ok [0x41] := by
    have hmem : Call.read readSize last ∈ calls :=
      hcalls ▸ List.mem_append_right front List.mem_cons_self
    exact hanswer _ hmem last rfl
  subst hlast
  cases hends with
  | judged hresult =>
    rw [hundecided] at hresult
    cases hresult
  | tooLarge _ hlarge =>
    have hrounds : calls.length ≤ 16384 := hbounded.rounds
    rw [hrecorded, List.length_replicate] at hlarge
    exact ⟨Nat.le_antisymm hrounds hlarge, rfl⟩

end SniffProxy.Http
