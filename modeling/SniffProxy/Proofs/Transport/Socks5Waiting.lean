import SniffProxy.Proofs.Stream.Waiting
import SniffProxy.Proofs.Transport.Reaching
import SniffProxy.Proofs.Transport.Socks5
import SniffProxy.Proofs.Transport.Socks5Grammar

/-!
# A SOCKS5 server that stays silent

Connecting to the remote has a deadline, the handshake behind it has none. So it depends on the
server whether dialing ends: it does if the server ends its stream or has said enough to decide the
handshake, and it does not if the server stays silent before that.

* `Socks5.Undecided` — what a server may have said that decides nothing yet.
* `Socks5.wrap_waitsOnly`, `Socks5.wrap_blocks` — the handshake waits just for such a server.
* `ProxyDialer.dial_socks5_pending_iff` — when dialing never ends.
-/

namespace SniffProxy

open Act (sends takes)

namespace Socks5

/-! ## Undecided handshakes -/

/-- Behind this type byte, these bytes are no whole bound address. -/
def ShortBound (typeByte : UInt8) (bytes : Bytes) : Prop :=
  (typeByte = 3 ∧ bytes = []) ∨
    ∃ front bound length, BoundLength typeByte front length ∧ bytes = front ++ bound ∧
      bound.length < length

/-- These bytes begin an answer to a request that may still become a success or is still too short
to be told from one. -/
def ShortReply (bytes : Bytes) : Prop :=
  bytes.length < 4 ∨
    ∃ reserved typeByte rest, bytes = version :: 0 :: reserved :: typeByte :: rest ∧
      ShortBound typeByte rest

/-- A server that said this has neither refused nor answered. -/
def Undecided (bytes : Bytes) : Prop :=
  bytes.length < 2 ∨ ∃ reply, bytes = selection ++ reply ∧ ShortReply reply

/-! ## Waiting only when undecided -/

theorem readSelection_waitsOnly : readSelection.WaitsOnly fun bytes => bytes.length < 2 := by
  refine (Handshake.waitsOnly_readExact 2).bind (Handshake.ensures_readExact 2) (fun _ h => h) ?_
  rintro _ _ selected -
  split
  · split
    · exact Handshake.waitsOnly_pure ()
    · exact Handshake.waitsOnly_throw _
  · exact Handshake.waitsOnly_throw _

theorem boundLength_waitsOnly (typeByte : UInt8) :
    (boundLength typeByte).WaitsOnly fun bytes => typeByte = 3 ∧ bytes = [] := by
  unfold boundLength
  split
  · exact Handshake.waitsOnly_pure 6
  · split
    · exact Handshake.waitsOnly_pure 18
    · split
      · rename_i hdomain
        refine Handshake.waitsOnly_readByte.bind Handshake.ensures_readByte
          (fun _ h => ⟨hdomain, h⟩) ?_
        rintro _ _ length -
        exact Handshake.waitsOnly_pure _
      · exact Handshake.waitsOnly_throw _

/-- The bound address is waited for until it is whole. -/
theorem skipBound_waitsOnly (typeByte : UInt8) :
    Handshake.WaitsOnly (do
      let length ← boundLength typeByte
      let _ ← Handshake.readExact length
      return ()) (ShortBound typeByte) := by
  refine (boundLength_waitsOnly typeByte).bind (boundLength_ensures typeByte) (fun _ => .inl) ?_
  rintro front _ length ⟨-, hfront⟩
  refine (Handshake.waitsOnly_readExact length).bind (Handshake.ensures_readExact length) ?_ ?_
  · intro bound hbound
    exact .inr ⟨front, bound, length, hfront, rfl, hbound⟩
  · rintro _ _ _ -
    exact Handshake.waitsOnly_pure ()

theorem readReply_waitsOnly (address : Address) : (readReply address).WaitsOnly ShortReply := by
  refine (Handshake.waitsOnly_readExact 4).bind (Handshake.ensures_readExact 4) (fun _ => .inl) ?_
  rintro reply _ _ ⟨rfl, rfl, hlength⟩
  match reply, hlength with
  | [first, code, reserved, typeByte], _ =>
    split
    · rename_i hversion
      split
      · rename_i hcode
        cases show first = version from hversion
        cases show code = 0 from hcode
        refine (skipBound_waitsOnly typeByte).mono fun rest hrest => ?_
        exact .inr ⟨reserved, typeByte, rest, rfl, hrest⟩
      · exact Handshake.waitsOnly_throw _
    · exact Handshake.waitsOnly_throw _

/-- **The client waits for ever only for an undecided server.** -/
theorem wrap_waitsOnly (host : String) (port : Port) : (wrap host port).WaitsOnly Undecided := by
  unfold wrap
  cases h : Address.ofHostPort host port with
  | error error => exact Handshake.waitsOnly_throw error
  | ok address =>
    refine (Handshake.waitsOnly_pure address).of_never (Handshake.ensures_ofExcept_ok address) ?_
    rintro _ _ _ ⟨rfl, -, rfl⟩
    refine (Handshake.waitsOnly_writeAll greeting).of_never (Handshake.ensures_writeAll greeting) ?_
    rintro _ _ _ ⟨rfl, -⟩
    refine readSelection_waitsOnly.bind readSelection_ensures (fun _ => .inl) ?_
    rintro _ _ _ ⟨-, rfl⟩
    refine (Handshake.waitsOnly_writeAll _).of_never (Handshake.ensures_writeAll _) ?_
    rintro _ _ _ ⟨rfl, -⟩
    refine Handshake.waitsOnly_flush.of_never Handshake.ensures_flush ?_
    rintro _ _ _ ⟨rfl, -⟩
    refine (readReply_waitsOnly _).mono fun reply hreply => ?_
    exact .inr ⟨reply, rfl, hreply⟩

/-! ## Waiting whenever undecided -/

theorem skipBound_blocks (typeByte : UInt8) :
    Handshake.Blocks (do
      let length ← boundLength typeByte
      let _ ← Handshake.readExact length
      return ()) (ShortBound typeByte) := by
  intro now script hscript hsilent hshort
  obtain ⟨rfl, hnothing⟩ | ⟨front, bound, length, hfront, hcontent, hbound⟩ := hshort
  · exact (Handshake.blocks_readByte.bind _).bind _ now script hscript hsilent hnothing
  · refine (boundLength_follows hfront).blocks ((Handshake.blocks_readExact length).bind _) now
      script hscript hsilent ⟨bound, ?_, hbound⟩
    rw [hcontent, Act.taken_takes]

theorem readReply_blocks (address : Address) : (readReply address).Blocks ShortReply := by
  intro now script hscript hsilent hshort
  obtain hshort | ⟨reserved, typeByte, rest, hcontent, hbound⟩ := hshort
  · exact (Handshake.blocks_readExact 4).bind _ now script hscript hsilent hshort
  · have hheader : (Handshake.readExact 4).Follows (takes [version, 0, reserved, typeByte])
        [version, 0, reserved, typeByte] := Handshake.follows_readExact 4 _ rfl
    refine hheader.blocks (skipBound_blocks typeByte) now script hscript hsilent ⟨rest, ?_, hbound⟩
    rw [hcontent, Act.taken_takes]
    rfl

/-- **The client waits for ever for every undecided server that stays silent.** -/
theorem wrap_blocks {host : String} {port : Port} {address : Address}
    (h : Address.ofHostPort host port = .ok address) : (wrap host port).Blocks Undecided := by
  rw [wrap, h]
  intro now script hscript hsilent hundecided
  obtain hshort | ⟨reply, hcontent, hreply⟩ := hundecided
  · refine (Handshake.follows_ofExcept address).blocks ((Handshake.follows_writeAll greeting).blocks
      (((Handshake.blocks_readExact 2).bind _).bind _)) now script hscript hsilent ?_
    exact ⟨_, rfl, _, rfl, hshort⟩
  · refine (Handshake.follows_ofExcept address).blocks ((Handshake.follows_writeAll greeting).blocks
      (readSelection_follows.blocks ((Handshake.follows_writeAll _).blocks
        (Handshake.follows_flush.blocks (readReply_blocks address))))) now script hscript hsilent ?_
    refine ⟨_, rfl, _, rfl, reply, ?_, _, ?_, _, rfl, hreply⟩
    · exact hcontent
    · rw [Act.taken_sends]
      rfl

end Socks5

/-! ## Dialing -/

namespace ProxyDialer

section

variable {network : Network Script} {remote target : HostPort} {timeout : Nat}

/-- Dialing through a SOCKS5 remote waits for ever with the handshake. -/
theorem dial_socks5_pending_iff_run (hhost : target.host ≠ "") (hport : target.port ≠ 0) :
    dial ⟨.socks5, .tcp remote, timeout⟩ network target = .pending ↔
      ∃ took stream, RemoteLink.Reaches (.tcp remote) network target took stream ∧
        took ≤ timeout ∧
        ∃ rest log, (Socks5.wrap target.host target.port).session.run none 0 stream =
          .waiting rest log := by
  have htarget : targetError target = none := if_neg (not_or.mpr ⟨hhost, hport⟩)
  have hreaches : ∀ took stream, openRemote ⟨.socks5, .tcp remote, timeout⟩ network target =
      (took, .ok stream) ↔ RemoteLink.Reaches (.tcp remote) network target took stream ∧
        took ≤ timeout := fun _ _ => openRemote_eq_ok_iff
  cases hopen : openRemote ⟨.socks5, .tcp remote, timeout⟩ network target with
  | mk connected result =>
    cases result with
    | error error =>
      simp only [dial, htarget, hopen, reduceCtorEq, false_iff]
      rintro ⟨took, stream, hreached, htime, -⟩
      rw [(hreaches took stream).mpr ⟨hreached, htime⟩] at hopen
      cases hopen
    | ok opened =>
      obtain ⟨hreached, htime⟩ := (hreaches connected opened).mp hopen
      have hsame : ∀ {took stream}, RemoteLink.Reaches (.tcp remote) network target took stream →
          took ≤ timeout → stream = opened := by
        intro took stream hother hothertime
        have hopened := (hreaches took stream).mpr ⟨hother, hothertime⟩
        rw [hopen] at hopened
        cases hopened
        rfl
      cases hrun : (Socks5.wrap target.host target.port).session.run none 0 opened with
      | waiting rest log =>
        simp only [dial, htarget, hopen, Transport.wrap, Wire.run, hrun, true_iff]
        exact ⟨connected, opened, hreached, htime, rest, log, hrun⟩
      | finished value time rest log =>
        constructor
        · intro hpending
          cases value <;>
            simp [dial, htarget, hopen, Transport.wrap, Wire.run, hrun] at hpending
        · rintro ⟨took, stream, hother, hothertime, rest, log, hwaiting⟩
          rw [hsame hother hothertime, hrun] at hwaiting
          cases hwaiting

end

/-- **When dialing through a SOCKS5 remote never ends**: just when the remote takes the connection in
time and the handshake with it waits for ever, whatever the timeout is. If no write of the handshake
stalls and nothing of it fails, this comes to the following: the destination has a wire form, and the
remote says too little to decide the handshake and then neither says more nor ends its stream. Ending
it at any point is enough, and so is any answer that decides; time is not. -/
theorem dial_socks5_pending_iff {network : Network Script} {remote target : HostPort} {timeout : Nat}
    (hhost : target.host ≠ "") (hport : target.port ≠ 0) :
    (dial ⟨.socks5, .tcp remote, timeout⟩ network target = .pending ↔
      ∃ took stream, RemoteLink.Reaches (.tcp remote) network target took stream ∧
        took ≤ timeout ∧
        ∃ rest log, (Socks5.wrap target.host target.port).session.run none 0 stream =
          .waiting rest log) ∧
    ((∀ took stream, RemoteLink.Reaches (.tcp remote) network target took stream →
        stream.Obliging) →
      (dial ⟨.socks5, .tcp remote, timeout⟩ network target = .pending ↔
        ∃ took stream address, RemoteLink.Reaches (.tcp remote) network target took stream ∧
          took ≤ timeout ∧ Address.ofHostPort target.host target.port = .ok address ∧
          stream.ends = false ∧ Socks5.Undecided stream.content)) := by
  refine ⟨dial_socks5_pending_iff_run hhost hport, fun hobliging => ?_⟩
  rw [dial_socks5_pending_iff_run hhost hport]
  constructor
  · rintro ⟨took, stream, hreaches, htime, rest, log, hrun⟩
    have hstream := hobliging took stream hreaches
    have hundecided := Socks5.wrap_waitsOnly _ _ hstream hrun
    cases haddress : Address.ofHostPort target.host target.port with
    | error error =>
      -- a destination that cannot be sent is refused before anything is read
      rw [Socks5.wrap, haddress] at hrun
      cases hrun
    | ok address =>
      refine ⟨took, stream, address, hreaches, htime, rfl, ?_, hundecided⟩
      cases hends : stream.ends with
      | false => rfl
      | true =>
        obtain ⟨_, _, _, _, hfinished⟩ : ∃ result time rest log,
            (Socks5.wrap target.host target.port).session.run none 0 stream =
              .finished result time rest log :=
          Session.run_finishes hstream hends
        rw [hfinished] at hrun
        cases hrun
  · rintro ⟨took, stream, address, hreaches, htime, haddress, hsilent, hundecided⟩
    exact ⟨took, stream, hreaches, htime,
      Socks5.wrap_blocks haddress 0 stream (hobliging took stream hreaches) hsilent hundecided⟩

/-- A server that selects the method, keeps the connection open and says nothing to the request. -/
def muteServer : Script where
  events := [⟨0, .data Socks5.selection⟩]
  afterwards := .silent

theorem dial_socks5_pending_mute :
    dial ⟨.socks5, .tcp ⟨"127.0.0.1", 1080⟩, 5000⟩ (.ofTcp fun _ => .ok muteServer)
      ⟨"example.com", 443⟩ = .pending := by
  have hobliging : ∀ took stream,
      RemoteLink.Reaches (.tcp ⟨"127.0.0.1", 1080⟩) (.ofTcp fun _ => .ok muteServer)
        ⟨"example.com", 443⟩ took stream → stream.Obliging := by
    rintro took stream ⟨raw, htcp, hquick⟩
    cases htcp
    cases hquick
    exact ⟨List.forall_mem_cons.mpr ⟨nofun, nofun⟩, nofun, rfl, rfl, rfl⟩
  have haddress : Address.ofHostPort "example.com" 443 = .ok ⟨.domain "example.com", 443⟩ := by
    decide
  exact ((dial_socks5_pending_iff (by decide) (by decide)).2 hobliging).mpr
    ⟨0, muteServer, _, ⟨muteServer, rfl, rfl⟩, by decide, haddress, rfl,
      .inr ⟨[], rfl, .inl (by decide)⟩⟩

/-- No timeout is short enough: dialing through the same server has no outcome. -/
theorem dial_socks5_without_outcome :
    ¬ ∃ timeout : Nat, ∀ (network : Network Script) (remote target : HostPort), target.host ≠ "" →
      target.port ≠ 0 →
      (dial ⟨.socks5, .tcp remote, timeout⟩ network target).result ≠ none := by
  rintro ⟨timeout, hall⟩
  refine hall (.ofTcp fun _ => .ok muteServer) ⟨"127.0.0.1", 1080⟩ ⟨"example.com", 443⟩ (by decide)
    (by decide) ?_
  have hopen : openRemote ⟨.socks5, .tcp ⟨"127.0.0.1", 1080⟩, timeout⟩
      (.ofTcp fun _ => .ok muteServer) ⟨"example.com", 443⟩ = (0, .ok muteServer) :=
    openRemote_eq_ok_iff.mpr ⟨⟨muteServer, rfl, rfl⟩, Nat.zero_le timeout⟩
  have htarget : targetError ⟨"example.com", 443⟩ = none := by decide
  simp only [dial, htarget, hopen]
  rfl

end ProxyDialer

end SniffProxy
