import Mathlib.Logic.Relation
import SniffProxy.Listener.Slots

/-!
# Admission under a limit

Whatever order connections come, finish and are cut off in, a listener with a limit serves at most so
many of them at a time, in the order in which it accepted them, and loses none but the one that was
waiting when the listener stopped.

* `Slots.Shows` — a step and what is seen of it; `Slots.Run` — steps and their history.
* `Slots.Ledger` — the invariant: what a history says about where the connections are.
* `Slots.Orderly` — what is promised of every history; `Slots.Run.orderly` keeps the promise.
-/

namespace SniffProxy.Slots

open Relation (ReflTransGen)

variable {κ : Type}

/-! ## When a connection moves on -/

section

variable {slots : Slots κ} {conn : κ}

theorem next?_eq_some (h : slots.next? = some conn) :
    slots.running = true ∧ slots.waiting = none ∧ slots.backlog = conn :: slots.backlog.tail := by
  unfold next? at h
  split at h
  · rename_i hidle
    obtain ⟨later, hbacklog⟩ := List.head?_eq_some_iff.mp h
    exact ⟨hidle.1, hidle.2, by rw [hbacklog, List.tail_cons]⟩
  · cases h

theorem isFree_iff : slots.isFree = true ↔ slots.limit = 0 ∨ slots.serving.length < slots.limit := by
  simp [isFree]

theorem ready?_eq_some : slots.ready? = some conn ↔
    slots.running = true ∧ slots.isFree = true ∧ slots.waiting = some conn := by
  simp [ready?, and_assoc]

theorem accept_of_unlimited (h : slots.next? = some conn) (hlimit : slots.limit = 0) :
    slots.accept =
      { slots with backlog := slots.backlog.tail, serving := slots.serving ++ [conn] } := by
  simp only [accept, h, if_pos hlimit]

theorem accept_of_limited (h : slots.next? = some conn) (hlimit : slots.limit ≠ 0) :
    slots.accept = { slots with backlog := slots.backlog.tail, waiting := some conn } := by
  simp only [accept, h, if_neg hlimit]

theorem promote_of_ready? (h : slots.ready? = some conn) :
    slots.promote = { slots with waiting := none, serving := slots.serving ++ [conn] } := by
  simp only [promote, h]

end

/-! ## Histories -/

/-- How far a connection can come. -/
inductive Milestone where
  | arrived
  | accepted
  /-- In service. -/
  | entered
  /-- Its service is over, with success or without. -/
  | finished
  deriving DecidableEq

/-- What is seen of a listener. -/
inductive Occurrence (κ : Type) where
  | reached (conn : κ) (milestone : Milestone)
  | cancelled

/-- The connection that reaches a milestone in an occurrence, if one does. -/
def Occurrence.who? (milestone : Milestone) : Occurrence κ → Option κ
  | .reached conn other => if other = milestone then some conn else none
  | .cancelled => none

/-- The connections that reached a milestone, in the order in which they did. -/
def reached (milestone : Milestone) (history : List (Occurrence κ)) : List κ :=
  history.filterMap (Occurrence.who? milestone)

section

variable (milestone : Milestone)

@[simp] theorem reached_nil : reached milestone ([] : List (Occurrence κ)) = [] := rfl

@[simp] theorem reached_append (front back : List (Occurrence κ)) :
    reached milestone (front ++ back) = reached milestone front ++ reached milestone back :=
  List.filterMap_append

@[simp] theorem reached_cons_reached (conn : κ) (other : Milestone) (later : List (Occurrence κ)) :
    reached milestone (.reached conn other :: later) =
      if other = milestone then conn :: reached milestone later else reached milestone later := by
  by_cases h : other = milestone <;> simp [reached, Occurrence.who?, h]

@[simp] theorem reached_cons_cancelled (later : List (Occurrence κ)) :
    reached milestone (.cancelled :: later) = reached milestone later := rfl

end

/-- Nothing but ends of services is seen. -/
def OnlyEnds (history : List (Occurrence κ)) : Prop :=
  ∀ occurrence ∈ history, ∃ conn, occurrence = .reached conn .finished

theorem OnlyEnds.reached_eq_nil {history : List (Occurrence κ)} (h : OnlyEnds history)
    {milestone : Milestone} (hother : milestone ≠ .finished) : reached milestone history = [] := by
  refine List.filterMap_eq_nil_iff.mpr fun occurrence hmem => ?_
  obtain ⟨conn, rfl⟩ := h occurrence hmem
  exact if_neg hother.symm

/-! ## The invariant -/

/-- What a history says about where the connections are. -/
structure Ledger (limit : Nat) (history : List (Occurrence κ)) (slots : Slots κ) : Prop where
  limit_eq : slots.limit = limit
  /-- The listener runs until it is cancelled. -/
  running_iff : slots.running = true ↔ .cancelled ∉ history
  /-- Whoever arrived was accepted or still has to be. -/
  arrivals : slots.running = true → reached .arrived history = reached .accepted history ++ slots.backlog
  accepted_prefix : reached .accepted history <+: reached .arrived history
  /-- Whoever was accepted entered service or is the one that waits. -/
  entries : slots.running = true →
    reached .accepted history = reached .entered history ++ slots.waiting.toList
  entered_prefix : reached .entered history <+: reached .accepted history
  accepted_le : (reached .accepted history).length ≤ (reached .entered history).length + 1
  /-- Whoever entered service is in service or has finished. -/
  services : (slots.serving ++ reached .finished history).Perm (reached .entered history)
  serving_le : 0 < limit → slots.serving.length ≤ limit
  /-- Nobody waits for a listener that has stopped. -/
  stopped : slots.running = false → slots.waiting = none ∧ slots.backlog = []
  unlimited : limit = 0 → slots.waiting = none ∧ reached .accepted history = reached .entered history

theorem ledger_start (limit : Nat) : Ledger limit [] ({ limit } : Slots κ) where
  limit_eq := rfl
  running_iff := by simp
  arrivals := fun _ => rfl
  accepted_prefix := List.prefix_refl _
  entries := fun _ => rfl
  entered_prefix := List.prefix_refl _
  accepted_le := Nat.zero_le _
  services := .refl _
  serving_le := fun _ => Nat.zero_le _
  stopped := fun _ => ⟨rfl, rfl⟩
  unlimited := fun _ => ⟨rfl, rfl⟩

namespace Ledger

variable {limit : Nat} {history : List (Occurrence κ)} {slots : Slots κ} {conn : κ}

/-- While the listener runs, what was accepted and what entered follow from where the connections
are, so that a step need only say where it puts them. -/
theorem of_running (hlimit : slots.limit = limit) (hrunning : slots.running = true)
    (hhistory : .cancelled ∉ history)
    (harrivals : reached .arrived history = reached .accepted history ++ slots.backlog)
    (hentries : reached .accepted history = reached .entered history ++ slots.waiting.toList)
    (hservices : (slots.serving ++ reached .finished history).Perm (reached .entered history))
    (hserving : 0 < limit → slots.serving.length ≤ limit)
    (hunlimited : limit = 0 → slots.waiting = none) : Ledger limit history slots where
  limit_eq := hlimit
  running_iff := iff_of_true hrunning hhistory
  arrivals := fun _ => harrivals
  accepted_prefix := ⟨_, harrivals.symm⟩
  entries := fun _ => hentries
  entered_prefix := ⟨_, hentries.symm⟩
  accepted_le := by
    have hone : slots.waiting.toList.length ≤ 1 := by cases slots.waiting <;> simp
    rw [hentries, List.length_append]
    omega
  services := hservices
  serving_le := hserving
  stopped := by simp [hrunning]
  unlimited := fun hzero => ⟨hunlimited hzero, by rw [hentries, hunlimited hzero]; simp⟩

theorem not_cancelled (h : Ledger limit history slots) (hrunning : slots.running = true) :
    .cancelled ∉ history :=
  h.running_iff.mp hrunning

theorem enters (h : Ledger limit history slots) (conn : κ) :
    (slots.serving ++ [conn] ++ reached .finished history).Perm
      (reached .entered history ++ [conn]) := by
  calc slots.serving ++ [conn] ++ reached .finished history
    _ = slots.serving ++ ([conn] ++ reached .finished history) := List.append_assoc ..
    List.Perm _ (slots.serving ++ (reached .finished history ++ [conn])) :=
      List.perm_append_comm.append_left _
    _ = slots.serving ++ reached .finished history ++ [conn] := (List.append_assoc ..).symm
    List.Perm _ (reached .entered history ++ [conn]) := h.services.append_right [conn]

theorem arrive (h : Ledger limit history slots) (hrunning : slots.running = true) (conn : κ) :
    Ledger limit (history ++ [.reached conn .arrived]) (slots.arrive conn) := by
  refine of_running h.limit_eq hrunning (by simpa using h.not_cancelled hrunning) ?_ ?_ ?_
    h.serving_le fun hzero => (h.unlimited hzero).1
  · simp [Slots.arrive, h.arrivals hrunning]
  · simpa [Slots.arrive] using h.entries hrunning
  · simpa [Slots.arrive] using h.services

theorem enter (h : Ledger limit history slots) (hnext : slots.next? = some conn)
    (hlimit : slots.limit = 0) :
    Ledger limit (history ++ [.reached conn .accepted, .reached conn .entered]) slots.accept := by
  obtain ⟨hrunning, hwaiting, hbacklog⟩ := next?_eq_some hnext
  have hzero : limit = 0 := h.limit_eq.symm.trans hlimit
  rw [accept_of_unlimited hnext hlimit]
  refine of_running h.limit_eq hrunning (by simpa using h.not_cancelled hrunning) ?_ ?_ ?_
    (by omega) fun _ => hwaiting
  · simpa using (h.arrivals hrunning).trans (congrArg _ hbacklog)
  · simpa [hwaiting] using h.entries hrunning
  · simpa using h.enters conn

theorem accept (h : Ledger limit history slots) (hnext : slots.next? = some conn)
    (hlimit : slots.limit ≠ 0) :
    Ledger limit (history ++ [.reached conn .accepted]) slots.accept := by
  obtain ⟨hrunning, hwaiting, hbacklog⟩ := next?_eq_some hnext
  rw [accept_of_limited hnext hlimit]
  refine of_running h.limit_eq hrunning (by simpa using h.not_cancelled hrunning) ?_ ?_ ?_
    h.serving_le fun hzero => absurd (h.limit_eq.trans hzero) hlimit
  · simpa using (h.arrivals hrunning).trans (congrArg _ hbacklog)
  · simpa [hwaiting] using h.entries hrunning
  · simpa using h.services

theorem promote (h : Ledger limit history slots) (hready : slots.ready? = some conn) :
    Ledger limit (history ++ [.reached conn .entered]) slots.promote := by
  obtain ⟨hrunning, hfree, hwaiting⟩ := ready?_eq_some.mp hready
  rw [promote_of_ready? hready]
  refine of_running h.limit_eq hrunning (by simpa using h.not_cancelled hrunning) ?_ ?_ ?_ ?_
    fun _ => rfl
  · simpa using h.arrivals hrunning
  · simpa [hwaiting] using h.entries hrunning
  · simpa using h.enters conn
  · intro hpos
    have hroom := (isFree_iff.mp hfree).resolve_left (by have := h.limit_eq; omega)
    simpa [h.limit_eq, Nat.succ_le_iff] using hroom

theorem cancel (h : Ledger limit history slots) :
    Ledger limit (history ++ [.cancelled]) slots.cancel where
  limit_eq := h.limit_eq
  running_iff := by simp [Slots.cancel]
  arrivals := by simp [Slots.cancel]
  accepted_prefix := by simpa using h.accepted_prefix
  entries := by simp [Slots.cancel]
  entered_prefix := by simpa using h.entered_prefix
  accepted_le := by simpa using h.accepted_le
  services := by simpa [Slots.cancel] using h.services
  serving_le := h.serving_le
  stopped := fun _ => ⟨rfl, rfl⟩
  unlimited := fun hzero => ⟨rfl, by simpa using (h.unlimited hzero).2⟩

end Ledger

variable [DecidableEq κ]

theorem Ledger.finish {limit : Nat} {history : List (Occurrence κ)} {slots : Slots κ} {conn : κ}
    (h : Ledger limit history slots) (hserving : conn ∈ slots.serving) :
    Ledger limit (history ++ [.reached conn .finished]) (slots.finish conn) where
  limit_eq := h.limit_eq
  running_iff := by simpa [Slots.finish] using h.running_iff
  arrivals := by simpa [Slots.finish] using h.arrivals
  accepted_prefix := by simpa using h.accepted_prefix
  entries := by simpa [Slots.finish] using h.entries
  entered_prefix := by simpa using h.entered_prefix
  accepted_le := by simpa using h.accepted_le
  services := by
    have hmoved : (slots.serving.erase conn ++ (reached .finished history ++ [conn])).Perm
        (conn :: slots.serving.erase conn ++ reached .finished history) := by
      rw [← List.append_assoc]
      exact List.perm_append_singleton _ _
    have hback := (List.perm_cons_erase hserving).symm.append_right (reached .finished history)
    simpa [Slots.finish] using (hmoved.trans hback).trans h.services
  serving_le := fun hpos => Nat.le_trans List.length_erase_le (h.serving_le hpos)
  stopped := h.stopped
  unlimited := by simpa [Slots.finish] using h.unlimited

/-! ## Runs -/

/-- A step and what is seen of it. -/
inductive Shows : Slots κ → List (Occurrence κ) → Slots κ → Prop where
  | arrive {slots : Slots κ} (conn : κ) (running : slots.running = true) :
    Shows slots [.reached conn .arrived] (slots.arrive conn)
  /-- Without a limit whoever is accepted enters service at once. -/
  | enter {slots : Slots κ} {conn : κ} (next : slots.next? = some conn) (limit : slots.limit = 0) :
    Shows slots [.reached conn .accepted, .reached conn .entered] slots.accept
  | accept {slots : Slots κ} {conn : κ} (next : slots.next? = some conn) (limit : slots.limit ≠ 0) :
    Shows slots [.reached conn .accepted] slots.accept
  | promote {slots : Slots κ} {conn : κ} (ready : slots.ready? = some conn) :
    Shows slots [.reached conn .entered] slots.promote
  | finish {slots : Slots κ} {conn : κ} (serving : conn ∈ slots.serving) :
    Shows slots [.reached conn .finished] (slots.finish conn)
  | cancel {slots : Slots κ} (running : slots.running = true) :
    Shows slots [.cancelled] slots.cancel

theorem step_iff_shows {slots next : Slots κ} : Step slots next ↔ ∃ seen, Shows slots seen next := by
  constructor
  · rintro (⟨conn, hrunning⟩ | hnext | hready | hserving | hrunning)
    · exact ⟨_, .arrive conn hrunning⟩
    · by_cases hlimit : slots.limit = 0
      · exact ⟨_, .enter hnext hlimit⟩
      · exact ⟨_, .accept hnext hlimit⟩
    · exact ⟨_, .promote hready⟩
    · exact ⟨_, .finish hserving⟩
    · exact ⟨_, .cancel hrunning⟩
  · rintro ⟨_, ⟨conn, hrunning⟩ | ⟨hnext, _⟩ | ⟨hnext, _⟩ | hready | hserving | hrunning⟩
    · exact .arrive conn hrunning
    · exact .accept hnext
    · exact .accept hnext
    · exact .promote hready
    · exact .finish hserving
    · exact .cancel hrunning

/-- Steps one after another, with all that is seen of them. -/
inductive Run (first : Slots κ) : List (Occurrence κ) → Slots κ → Prop where
  | start : Run first [] first
  | step {history seen : List (Occurrence κ)} {slots next : Slots κ} (run : Run first history slots)
    (shows : Shows slots seen next) : Run first (history ++ seen) next

namespace Run

variable {first middle slots : Slots κ} {history later seen : List (Occurrence κ)}

theorem single (h : Shows first seen slots) : Run first seen slots :=
  .step .start h

theorem trans (h : Run first history middle) (hlater : Run middle later slots) :
    Run first (history ++ later) slots := by
  induction hlater with
  | start => simpa using h
  | step _ hshows ih => simpa using ih.step hshows

end Run

/-- The states that the steps lead to are those with a history. -/
theorem reachable_iff_run {first slots : Slots κ} :
    ReflTransGen Step first slots ↔ ∃ history, Run first history slots := by
  constructor
  · intro hreach
    induction hreach with
    | refl => exact ⟨[], .start⟩
    | tail _ hstep ih =>
      obtain ⟨history, hrun⟩ := ih
      obtain ⟨seen, hshows⟩ := step_iff_shows.mp hstep
      exact ⟨history ++ seen, hrun.step hshows⟩
  · rintro ⟨history, hrun⟩
    induction hrun with
    | start => exact .refl
    | step _ hshows ih => exact ih.tail (step_iff_shows.mpr ⟨_, hshows⟩)

theorem Ledger.step {limit : Nat} {history seen : List (Occurrence κ)} {slots next : Slots κ}
    (h : Ledger limit history slots) (hshows : Shows slots seen next) :
    Ledger limit (history ++ seen) next := by
  cases hshows with
  | arrive conn hrunning => exact h.arrive hrunning conn
  | enter hnext hlimit => exact h.enter hnext hlimit
  | accept hnext hlimit => exact h.accept hnext hlimit
  | promote hready => exact h.promote hready
  | finish hserving => exact h.finish hserving
  | cancel _ => exact h.cancel

theorem Run.ledger {limit : Nat} {history : List (Occurrence κ)} {slots : Slots κ}
    (h : Run { limit } history slots) : Ledger limit history slots := by
  induction h with
  | start => exact ledger_start limit
  | step _ hshows ih => exact ih.step hshows

/-! ## After the end -/

/-- Of a listener that has stopped nothing is seen but ends of services, and it stays stopped. -/
theorem Shows.of_stopped {slots next : Slots κ} {seen : List (Occurrence κ)}
    (h : Shows slots seen next) (hstopped : slots.running = false) :
    OnlyEnds seen ∧ next.running = false := by
  have hidle : ∀ {conn}, slots.next? ≠ some conn := fun {conn} hnext => by
    simp [(next?_eq_some hnext).1] at hstopped
  cases h with
  | arrive _ hrunning => simp [hrunning] at hstopped
  | enter hnext _ => exact absurd hnext hidle
  | accept hnext _ => exact absurd hnext hidle
  | promote hready => simp [(ready?_eq_some.mp hready).1] at hstopped
  | finish _ => exact ⟨by simp [OnlyEnds], hstopped⟩
  | cancel hrunning => simp [hrunning] at hstopped

theorem Run.of_stopped {first slots : Slots κ} {history : List (Occurrence κ)}
    (h : Run first history slots) (hstopped : first.running = false) :
    OnlyEnds history ∧ slots.running = false := by
  induction h with
  | start => exact ⟨by simp [OnlyEnds], hstopped⟩
  | step _ hshows ih =>
    obtain ⟨hends, hstill⟩ := hshows.of_stopped ih.2
    exact ⟨List.forall_mem_append.mpr ⟨ih.1, hends⟩, hstill⟩

theorem Shows.of_cancelled {slots next : Slots κ} {seen front back : List (Occurrence κ)}
    (h : Shows slots seen next) (hseen : seen = front ++ .cancelled :: back) :
    slots.running = true ∧ front = [] ∧ back = [] ∧ next = slots.cancel := by
  have hmem : .cancelled ∈ seen := hseen ▸ List.mem_append_right front List.mem_cons_self
  cases h with
  | cancel _ => cases front <;> simp_all
  | _ => simp at hmem

/-- A history with a cancellation is cut there by the state in which it was taken. -/
theorem Run.cut {first slots : Slots κ} {history before after : List (Occurrence κ)}
    (h : Run first history slots) (hhistory : history = before ++ .cancelled :: after) :
    ∃ last, last.running = true ∧ Run first before last ∧ Run last.cancel after slots := by
  induction h generalizing after with
  | start => simp at hhistory
  | @step earlier seen slots next hrun hshows ih =>
    -- the cancellation is in the history before the last step, or it is what the last step shows
    rcases List.append_eq_append_iff.mp hhistory with
      ⟨more, hbefore, hseen⟩ | ⟨_ | ⟨occurrence, more⟩, hearlier, hafter⟩
    · obtain ⟨hrunning, rfl, rfl, rfl⟩ := hshows.of_cancelled hseen
      exact ⟨slots, hrunning, by simpa [hbefore] using hrun, .start⟩
    · obtain ⟨hrunning, -, rfl, rfl⟩ := hshows.of_cancelled (show seen = [] ++ _ from hafter.symm)
      exact ⟨slots, hrunning, by simpa [hearlier] using hrun, .start⟩
    · obtain ⟨rfl, rfl⟩ := List.cons_eq_cons.mp hafter
      obtain ⟨last, hrunning, hbefore, hlast⟩ := ih hearlier
      exact ⟨last, hrunning, hbefore, hlast.step hshows⟩

/-! ## What is promised -/

/-- What is promised of a history and of the state that it leads to. -/
structure Orderly (limit : Nat) (history : List (Occurrence κ)) (slots : Slots κ) : Prop where
  /-- No more are in service than the limit allows. -/
  serving_le : 0 < limit → slots.serving.length ≤ limit
  /-- In service are those that entered it and have not finished. -/
  serving_perm : (slots.serving ++ reached .finished history).Perm (reached .entered history)
  /-- At most one that was accepted is kept from service. -/
  accepted_le : (reached .accepted history).length ≤ (reached .entered history).length + 1
  accepted_prefix : reached .accepted history <+: reached .arrived history
  /-- Service is entered in the order of acceptance. -/
  entered_prefix : reached .entered history <+: reached .accepted history
  entered_nodup : (reached .arrived history).Nodup → (reached .entered history).Nodup
  /-- While the listener runs, everybody accepted has entered service, save the one that waits. -/
  of_running : .cancelled ∉ history →
    reached .accepted history = reached .entered history ++ slots.waiting.toList
  /-- The one that waits enters as soon as fewer than the limit are in service, which the end of any
  service brings about. -/
  may_enter : ∀ conn, slots.waiting = some conn →
    (slots.serving.length < limit → slots.ready? = some conn) ∧
      ∀ other ∈ slots.serving, (slots.finish other).ready? = some conn
  /-- Once the listener has stopped nobody is accepted and nobody enters service. Those accepted
  before have entered, save the one that waited when the stop was taken. -/
  of_cancelled : ∀ before after, history = before ++ .cancelled :: after →
    OnlyEnds after ∧ ∃ last, Run { limit } before last ∧
      reached .accepted history = reached .entered history ++ last.waiting.toList
  /-- The end of a service frees exactly one slot. -/
  finish_frees : ∀ conn ∈ slots.serving,
    (slots.finish conn).serving.length + 1 = slots.serving.length
  /-- Without a limit nobody waits. -/
  unlimited : limit = 0 → slots.waiting = none ∧ reached .accepted history = reached .entered history

/-- Nobody is in service twice, nor in service and finished. -/
theorem Orderly.services_nodup {limit : Nat} {history : List (Occurrence κ)} {slots : Slots κ}
    (h : Orderly limit history slots) (hdistinct : (reached .arrived history).Nodup) :
    (slots.serving ++ reached .finished history).Nodup :=
  h.serving_perm.nodup_iff.mpr (h.entered_nodup hdistinct)

theorem length_finish {slots : Slots κ} {conn : κ} (h : conn ∈ slots.serving) :
    (slots.finish conn).serving.length + 1 = slots.serving.length := by
  simp only [finish, List.length_erase_of_mem h]
  exact Nat.sub_add_cancel (List.length_pos_of_mem h)

theorem Ledger.may_enter {limit : Nat} {history : List (Occurrence κ)} {slots : Slots κ} {conn : κ}
    (h : Ledger limit history slots) (hwaiting : slots.waiting = some conn) :
    (slots.serving.length < limit → slots.ready? = some conn) ∧
      ∀ other ∈ slots.serving, (slots.finish other).ready? = some conn := by
  have hrunning : slots.running = true := by
    cases hstate : slots.running with
    | true => rfl
    | false => simp [(h.stopped hstate).1] at hwaiting
  have hpos : 0 < limit := Nat.pos_of_ne_zero fun hzero => by
    simp [(h.unlimited hzero).1] at hwaiting
  refine ⟨fun hroom => ?_, fun other hother => ?_⟩
  · exact ready?_eq_some.mpr ⟨hrunning, isFree_iff.mpr (.inr (h.limit_eq ▸ hroom)), hwaiting⟩
  · have hroom : (slots.finish other).serving.length < slots.limit := by
      have := length_finish hother
      have := h.serving_le hpos
      have := h.limit_eq
      omega
    exact ready?_eq_some.mpr ⟨hrunning, isFree_iff.mpr (.inr hroom), hwaiting⟩

theorem Run.of_cancelled {limit : Nat} {before after : List (Occurrence κ)} {slots : Slots κ}
    (h : Run { limit } (before ++ .cancelled :: after) slots) :
    OnlyEnds after ∧ ∃ last, Run { limit } before last ∧
      reached .accepted (before ++ .cancelled :: after) =
        reached .entered (before ++ .cancelled :: after) ++ last.waiting.toList := by
  obtain ⟨last, hrunning, hbefore, hafter⟩ := h.cut rfl
  have hends : OnlyEnds after := (hafter.of_stopped rfl).1
  refine ⟨hends, last, hbefore, ?_⟩
  simpa [hends.reached_eq_nil] using hbefore.ledger.entries hrunning

theorem Run.orderly {limit : Nat} {history : List (Occurrence κ)} {slots : Slots κ}
    (h : Run { limit } history slots) : Orderly limit history slots where
  serving_le := h.ledger.serving_le
  serving_perm := h.ledger.services
  accepted_le := h.ledger.accepted_le
  accepted_prefix := h.ledger.accepted_prefix
  entered_prefix := h.ledger.entered_prefix
  entered_nodup := fun hdistinct =>
    hdistinct.sublist (h.ledger.entered_prefix.trans h.ledger.accepted_prefix).sublist
  of_running := fun hrunning => h.ledger.entries (h.ledger.running_iff.mpr hrunning)
  may_enter := fun _ hwaiting => h.ledger.may_enter hwaiting
  of_cancelled := fun before after hhistory => by
    subst hhistory
    exact h.of_cancelled
  finish_frees := fun _ hserving => length_finish hserving
  unlimited := h.ledger.unlimited

end SniffProxy.Slots
