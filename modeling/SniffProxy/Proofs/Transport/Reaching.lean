import SniffProxy.Dialer

/-!
# When a remote is reached

A connection to a remote comes about just if every attempt that it takes ends well, and all of them
together in time. Otherwise connecting is over with a failure, no later than its timeout.

* `RemoteLink.Reaches` — the attempts that a connection takes.
* `ProxyDialer.openRemote_eq_ok_iff` — a connection is opened just if they come off.
* `ProxyDialer.openRemote_of_unreached` — what happens if they do not.
-/

namespace SniffProxy

/-! ## Attempts under a deadline -/

/-- Explaining a failure in other words makes no success. -/
theorem mapError_eq_ok_iff {ε ε' α : Type} {explain : ε → ε'} {result : Except ε α} {value : α} :
    result.mapError explain = .ok value ↔ result = .ok value := by
  cases result with
  | error error => exact iff_of_false nofun nofun
  | ok found =>
    show (Except.ok found : Except ε' α) = .ok value ↔ Except.ok found = .ok value
    rw [Except.ok.injEq, Except.ok.injEq]

namespace Attempt

variable {α β : Type} {attempt : Attempt α} {deadline took : Nat} {late : DialFault}
  {explain : IoError → DialFault}

theorem within_eq_ok_iff {value : α} :
    attempt.within deadline late explain = (took, .ok value) ↔
      attempt = .ended took (.ok value) ∧ took ≤ deadline := by
  cases attempt with
  | pending => simp [within]
  | ended time result =>
    by_cases htime : time ≤ deadline
    · simp only [within, htime, if_true, mapError_eq_ok_iff, Prod.mk.injEq, ended.injEq]
      constructor
      · rintro ⟨rfl, hresult⟩
        exact ⟨⟨rfl, hresult⟩, htime⟩
      · exact fun h => h.1
    · simp only [within, htime, if_false, Prod.mk.injEq, reduceCtorEq, and_false, false_iff,
        ended.injEq, not_and]
      rintro ⟨rfl, -⟩
      exact htime

theorem within_fst_le : (attempt.within deadline late explain).1 ≤ deadline := by
  cases attempt with
  | pending => exact Nat.le_refl deadline
  | ended time result =>
    simp only [within]
    split
    · assumption
    · exact Nat.le_refl deadline

/-- Under a deadline every failure is one to dial. -/
theorem within_fault {error : ProxyError}
    (h : attempt.within deadline late explain = (took, .error error)) :
    ∃ fault, error = .dialFailed fault := by
  cases attempt with
  | pending =>
    cases h
    exact ⟨late, rfl⟩
  | ended time result =>
    simp only [within] at h
    split at h
    · cases result with
      | error cause =>
        cases h
        exact ⟨explain cause, rfl⟩
      | ok value => cases h
    · cases h
      exact ⟨late, rfl⟩

theorem bind_eq_ok_iff {next : α → Attempt β} {value : β} :
    attempt.bind next = .ended took (.ok value) ↔
      ∃ first before second, attempt = .ended before (.ok first) ∧
        next first = .ended second (.ok value) ∧ took = before + second := by
  cases attempt with
  | pending => simp [bind]
  | ended before result =>
    cases result with
    | error error => simp [bind]
    | ok first =>
      cases hnext : next first with
      | pending => simp [bind, delayed, hnext]
      | ended second result =>
        simp only [bind, delayed, hnext, ended.injEq, Except.ok.injEq]
        constructor
        · rintro ⟨rfl, rfl⟩
          exact ⟨first, before, second, ⟨rfl, rfl⟩, by rw [hnext], rfl⟩
        · rintro ⟨_, _, _, ⟨rfl, rfl⟩, hsecond, rfl⟩
          rw [hnext] at hsecond
          cases hsecond
          exact ⟨rfl, rfl⟩

end Attempt

/-! ## Connections to a remote -/

/-- The attempts by which a stream to a remote is opened in so many milliseconds. -/
def RemoteLink.Reaches {σ : Type} (link : RemoteLink) (network : Network σ) (target : HostPort)
    (took : Nat) (stream : σ) : Prop :=
  match link with
  | .tcp remote =>
    ∃ raw, network.tcp remote = .ended took (.ok raw) ∧ network.noDelay raw = .ok stream
  | .tls remote =>
    ∃ raw before quick after, network.tcp remote = .ended before (.ok raw) ∧
      network.noDelay raw = .ok quick ∧ network.tls remote.host quick = .ended after (.ok stream) ∧
      took = before + after
  | .ssh server => network.channel server target = .ended took (.ok stream)

section

variable {σ : Type} {network : Network σ} {timeout took : Nat} {remote : HostPort} {stream : σ}

theorem connectTcp_eq_ok_iff : connectTcp network timeout remote = (took, .ok stream) ↔
    ∃ raw, network.tcp remote = .ended took (.ok raw) ∧ took ≤ timeout ∧
      network.noDelay raw = .ok stream := by
  unfold connectTcp
  split
  · rename_i time raw hwithin
    obtain ⟨hended, htime⟩ := Attempt.within_eq_ok_iff.mp hwithin
    simp only [Prod.mk.injEq, mapError_eq_ok_iff]
    constructor
    · rintro ⟨rfl, hquick⟩
      exact ⟨raw, hended, htime, hquick⟩
    · rintro ⟨_, hended', -, hquick⟩
      rw [hended] at hended'
      cases hended'
      exact ⟨rfl, hquick⟩
  · rename_i time error hwithin
    simp only [Prod.mk.injEq, reduceCtorEq, and_false, false_iff]
    rintro ⟨raw, hended, htime, -⟩
    rw [Attempt.within_eq_ok_iff.mpr ⟨hended, htime⟩] at hwithin
    cases hwithin

theorem connectTls_eq_ok_iff : connectTls network timeout remote = (took, .ok stream) ↔
    (∃ raw before quick after, network.tcp remote = .ended before (.ok raw) ∧
      network.noDelay raw = .ok quick ∧ network.tls remote.host quick = .ended after (.ok stream) ∧
      took = before + after) ∧ took ≤ timeout := by
  rw [connectTls, Attempt.within_eq_ok_iff, Attempt.bind_eq_ok_iff]
  refine and_congr_left' ⟨?_, ?_⟩
  · rintro ⟨raw, before, after, htcp, htls, htook⟩
    cases hquick : network.noDelay raw with
    | error error =>
      rw [hquick] at htls
      cases htls
    | ok quick =>
      rw [hquick] at htls
      exact ⟨raw, before, quick, after, htcp, hquick, htls, htook⟩
  · rintro ⟨raw, before, quick, after, htcp, hquick, htls, htook⟩
    exact ⟨raw, before, after, htcp, by rw [hquick]; exact htls, htook⟩

end

namespace ProxyDialer

variable {σ : Type} {dialer : ProxyDialer} {network : Network σ} {target : HostPort} {took : Nat}
  {stream : σ}

/-- **A remote is reached** if the attempts come off, all together in time. -/
theorem openRemote_eq_ok_iff : dialer.openRemote network target = (took, .ok stream) ↔
    dialer.link.Reaches network target took stream ∧ took ≤ dialer.connectTimeout := by
  unfold openRemote RemoteLink.Reaches
  cases dialer.link with
  | tls remote => exact connectTls_eq_ok_iff
  | tcp remote =>
    rw [connectTcp_eq_ok_iff]
    constructor
    · rintro ⟨raw, htcp, htime, hquick⟩
      exact ⟨⟨raw, htcp, hquick⟩, htime⟩
    · rintro ⟨⟨raw, htcp, hquick⟩, htime⟩
      exact ⟨raw, htcp, htime, hquick⟩
  | ssh server => exact Attempt.within_eq_ok_iff

theorem openRemote_fst_le : (dialer.openRemote network target).1 ≤ dialer.connectTimeout := by
  unfold openRemote
  cases dialer.link with
  | tls remote => exact Attempt.within_fst_le
  | ssh server => exact Attempt.within_fst_le
  | tcp remote =>
    have hle : ∀ {late explain},
        ((network.tcp remote).within dialer.connectTimeout late explain).1 ≤
          dialer.connectTimeout := Attempt.within_fst_le
    simp only [connectTcp]
    split <;> rename_i hwithin <;> exact (congrArg Prod.fst hwithin).symm ▸ hle

/-- **A remote that is not reached** in time fails no later than that. -/
theorem openRemote_of_unreached
    (h : ∀ took stream, dialer.link.Reaches network target took stream →
      dialer.connectTimeout < took) :
    ∃ took error, dialer.openRemote network target = (took, .error error) ∧
      took ≤ dialer.connectTimeout := by
  have hle : (dialer.openRemote network target).1 ≤ dialer.connectTimeout := openRemote_fst_le
  cases hopen : dialer.openRemote network target with
  | mk took result =>
    rw [hopen] at hle
    cases result with
    | error error => exact ⟨took, error, rfl, hle⟩
    | ok stream =>
      obtain ⟨hreaches, htime⟩ := openRemote_eq_ok_iff.mp hopen
      exact absurd htime (Nat.not_le_of_lt (h took stream hreaches))

/-- A connection fails by an attempt that went wrong, or with a stream that cannot be set up. -/
theorem openRemote_fault {error : ProxyError}
    (h : dialer.openRemote network target = (took, .error error)) :
    (∃ fault, error = .dialFailed fault) ∨ ∃ cause, error = .io cause := by
  unfold openRemote at h
  cases hlink : dialer.link with
  | tls remote =>
    rw [hlink] at h
    exact .inl (Attempt.within_fault h)
  | ssh server =>
    rw [hlink] at h
    exact .inl (Attempt.within_fault h)
  | tcp remote =>
    rw [hlink] at h
    simp only [connectTcp] at h
    split at h
    · rename_i time raw _
      cases hquick : network.noDelay raw with
      | error cause =>
        rw [hquick] at h
        cases h
        exact .inr ⟨cause, rfl⟩
      | ok quick =>
        rw [hquick] at h
        cases h
    · rename_i time cause hwithin
      cases h
      exact .inl (Attempt.within_fault hwithin)

end ProxyDialer

end SniffProxy
