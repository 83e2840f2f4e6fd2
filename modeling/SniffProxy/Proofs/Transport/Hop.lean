import SniffProxy.Dialer
import SniffProxy.Proofs.Net.Canonical
import SniffProxy.Proofs.Stream.Obliging
import SniffProxy.Proofs.Stream.Silence
import SniffProxy.Proofs.Transport.Agreement
import SniffProxy.Proofs.Transport.Reaching
import SniffProxy.Proofs.Transport.SingleWrite
import SniffProxy.Proofs.Transport.Socks5
import SniffProxy.Proofs.Transport.Socks5Grammar

/-!
# Destinations survive the hop

A destination that a SOCKS5 server accepted is printed as a host text, announced to a remote by one
of the transports, and read there. What the remote reads is the same destination, told in the one
way. Only a destination without a host or a port is refused, before any connection is opened.

* `Handshake.Announces`, `Handshake.Hears` — what a client sends and what a server makes of it.
* `Transport.announces_hears` — every transport carries every address that can be encoded.
* `ProxyDialer.Carries` — what a dialer opens, writes and hands out for a destination.
* `ProxyDialer.dial_cause` — the causes with which a dial may fail.
* `Socks5.destination_survives` — all of it together.
-/

namespace SniffProxy

/-! ## Clients and servers -/

namespace Handshake

/-- The client announces itself with these bytes: it has just them accepted whenever it succeeds and a
first part of them wherever it stops, and it succeeds on an obliging stream that takes whole writes
and begins with the answers. -/
structure Announces (client : Handshake Unit) (frame answers : Bytes) : Prop where
  gives : client.Ensures fun _ given _ => given = frame
  leaves : client.session.Leaves fun _ given => given <+: frame
  succeeds : ∀ (script : Script) (rest : Bytes) (now : Nat), script.Obliging →
    script.limits.perWrite = none → script.content = answers ++ rest →
    ∃ time after log, client.session.run none now script = .finished (.ok ()) time after log ∧
      after.content = rest ∧ after.received = script.received ++ frame

/-- The server answers an address for these bytes if they arrive as one event of an obliging stream,
and leaves what stands behind them. -/
def Hears (server : Handshake Address) (frame : Bytes) (address : Address) : Prop :=
  ∀ (payload : Bytes) (script : Script) (due now : Nat), script.Obliging →
    ∃ time after log, server.session.run none now (script.holding due (frame ++ payload)) =
      .finished (.ok address) time after log ∧ after.content = payload ++ script.content

theorem Takes.hears {server : Handshake Address} {frame : Bytes} {address : Address}
    (h : server.Takes frame address) : server.Hears frame address := by
  intro payload script due now _
  obtain ⟨time, hrun⟩ := h payload script due now
  exact ⟨time, _, [], hrun, script.holding_content due payload⟩

theorem Follows.hears {server : Handshake Address} {acts : List Act} {address : Address}
    (h : server.Follows acts address) : server.Hears (Act.taken acts) address := by
  intro payload script due now hscript
  have hcontent : (script.holding due (Act.taken acts ++ payload)).content =
      Act.taken acts ++ (payload ++ script.content) := by
    rw [Script.holding_content, List.append_assoc]
  obtain ⟨time, after, log, hrun, hrest, _⟩ :=
    Session.Follows.run h now (hscript.holding due _) hcontent
  exact ⟨time, after, log, hrun, hrest⟩

theorem leaves_write (data : Bytes) : (write data).session.Leaves fun _ given => given <+: data := by
  refine leaves_ofIo fun deadline now script => ?_
  simp only [Session.run]
  split
  · exact ⟨[], [], rfl, (List.append_nil _).symm, List.nil_prefix⟩
  · rename_i answer after hwrite
    obtain ⟨given, haccepts, hcontent, hreceived⟩ := Script.write_accepts hwrite
    refine ⟨[], given, hcontent.symm, hreceived, ?_⟩
    cases answer with
    | error error =>
      cases haccepts
      exact List.nil_prefix
    | ok count => exact haccepts.2 ▸ List.take_prefix _ _

/-- A frame in a single write. -/
theorem writeFrame_announces (frame : Bytes) : (writeFrame frame).Announces frame [] where
  gives := by
    refine (ensures_write frame).bind ?_
    rintro _ _ written ⟨_, _, rfl⟩
    split
    · rename_i hall
      refine ensures_flush.mono ?_
      rintro _ _ _ ⟨_, rfl⟩
      rw [hall, List.take_length, List.append_nil]
    · exact ensures_throw _
  leaves := by
    refine leaves_bind (leaves_write frame) (ensures_write frame) (fun _ _ h => h) ?_
    rintro _ _ written ⟨rfl, -, rfl⟩
    have hsilent : (if written = frame.length then flush
        else throw (.shortWrite written frame.length) : Handshake Unit).session.Silent := by
      split
      · exact silent_flush
      · exact trivial
    refine hsilent.leaves.mono ?_
    rintro _ _ rfl
    rw [List.append_nil]
    exact List.take_prefix _ _
  succeeds := by
    intro script rest now hscript hwhole hcontent
    have hcount : script.acceptable frame.length = frame.length := by
      simp only [Script.acceptable, hscript.failAt, hscript.stallAt, hwhole, Option.map_none,
        Script.capAt]
    have hwrite := hscript.write_eq frame
    rw [hcount] at hwrite
    obtain ⟨given, ⟨-, rfl⟩, hkept, hreceived⟩ := Script.write_accepts hwrite
    refine ⟨now, _, [], ?_, hkept.trans hcontent, ?_⟩
    · rw [writeFrame_session, Session.run, hwrite]
      simp only [if_true, Session.run, Script.flush, hscript.flushes]
      rfl
    · rw [hreceived, List.take_length]

theorem framed_announces {request : Except ProxyError Bytes} {frame : Bytes}
    (h : request = .ok frame) : Announces (do
      let frame ← ofExcept request
      writeFrame frame) frame [] := by
  rw [h]
  exact writeFrame_announces frame

end Handshake

/-! ## Transports -/

namespace Socks5

theorem readSelection_silent : readSelection.session.Silent := by
  refine Handshake.silent_bind (Handshake.silent_readExact 2) fun selected => ?_
  split
  · split <;> exact trivial
  · exact trivial

theorem boundLength_silent (typeByte : UInt8) : (boundLength typeByte).session.Silent := by
  unfold boundLength
  split
  · exact trivial
  · split
    · exact trivial
    · split
      · exact Handshake.silent_bind Handshake.silent_readByte fun _ => trivial
      · exact trivial

theorem readReply_silent (address : Address) : (readReply address).session.Silent := by
  refine Handshake.silent_bind (Handshake.silent_readExact 4) fun reply => ?_
  split
  · split
    · refine Handshake.silent_bind (boundLength_silent _) fun length => ?_
      exact Handshake.silent_bind (Handshake.silent_readExact length) fun _ => trivial
    · exact trivial
  · exact trivial

/-- **Wherever the client stops**, it has had a first part of its two messages accepted. -/
theorem wrap_leaves {host : String} {port : Port} {address : Address}
    (h : Address.ofHostPort host port = .ok address) :
    (wrap host port).session.Leaves fun _ given => given <+: greeting ++ request address := by
  have hnothing : ∀ {frame given : Bytes}, given = [] → given <+: frame := by
    rintro frame _ rfl
    exact List.nil_prefix
  have hgreeting : ∀ {given : Bytes}, given <+: greeting → given <+: greeting ++ request address :=
    fun hgiven => hgiven.trans (List.prefix_append _ _)
  rw [wrap, h]
  have hofExcept : (Handshake.ofExcept (.ok address)).session.Silent := trivial
  refine Handshake.leaves_bind hofExcept.leaves (Handshake.ensures_ofExcept_ok address)
    (fun _ _ => hnothing) ?_
  rintro _ _ address ⟨rfl, rfl, rfl⟩
  refine Handshake.leaves_bind (Handshake.leaves_writeAll greeting)
    (Handshake.ensures_writeAll greeting) (fun _ _ hgiven => hgreeting hgiven.2) ?_
  rintro _ _ _ ⟨rfl, rfl⟩
  refine Handshake.leaves_bind readSelection_silent.leaves readSelection_ensures ?_ ?_
  · rintro _ _ rfl
    exact hgreeting (by simp)
  rintro _ _ _ ⟨rfl, rfl⟩
  refine Handshake.leaves_bind (Handshake.leaves_writeAll _) (Handshake.ensures_writeAll _) ?_ ?_
  · rintro _ more ⟨-, hmore⟩
    simpa using hmore
  rintro _ _ _ ⟨rfl, rfl⟩
  have hrest : (Handshake.flush >>= fun _ => readReply address : Handshake Unit).session.Silent :=
    Handshake.silent_bind Handshake.silent_flush fun _ => readReply_silent address
  refine hrest.leaves.mono ?_
  rintro _ _ rfl
  simp

end Socks5

namespace Transport

/-- What the remote answers to an announcement before it relays. -/
def answers : Transport → Bytes
  | compact _ => []
  | trojan _ => []
  | socks5 => Socks5.selection ++ Socks5.successReply
  | ssh => []

theorem socks5_announces {host : String} {port : Port} {address : Address}
    (h : Address.ofHostPort host port = .ok address) :
    (Socks5.wrap host port).Announces (Socks5.greeting ++ Socks5.request address)
      (Socks5.selection ++ Socks5.successReply) where
  gives := (Socks5.wrap_ensures h).mono fun _ _ _ hpost => hpost.1
  leaves := Socks5.wrap_leaves h
  succeeds := by
    intro script rest now hscript _ hcontent
    have htaken : script.content = Act.taken (Socks5.exchange address) ++ rest := by
      rw [hcontent]
      simp [Socks5.exchange]
    obtain ⟨time, after, log, hrun, hrest, hreceived, -⟩ :=
      Session.Follows.run (Socks5.wrap_follows h) now hscript htaken
    exact ⟨time, after, log, hrun, hrest, by simpa [Socks5.exchange] using hreceived⟩

theorem socks5_hears {address : Address} (h : address.Encodable) :
    Socks5.unwrap.Hears (Socks5.greeting ++ Socks5.request address) address := by
  have htaken : Act.taken (Act.duals (Socks5.exchange address)) =
      Socks5.greeting ++ Socks5.request address := by
    simp [Socks5.exchange]
  rw [← htaken]
  exact (Socks5.unwrap_follows h).hears

theorem compact_request (password : String) {host : String} (port : Port) (hhost : host ≠ "")
    (hlength : (utf8 host).length ≤ maxDomainLength) :
    Compact.request password host port =
      .ok ((Compact.key password ++ Compact.connectByte :: Port.toBytes port ++
        [UInt8.ofNat (utf8 host).length]) ++ utf8 host) := by
  rw [Compact.request, if_neg hhost, if_neg (Nat.not_lt.mpr hlength), List.append_assoc _ [_]]
  rfl

/-- **Every transport carries every address** that can be encoded and has a host text: a client
announces the text and the port, and the server of the same transport answers the address told in
the one way. -/
theorem announces_hears {address : Address} (h : address.Encodable)
    (hhost : address.host.text ≠ "") {transport : Transport} (htransport : transport ≠ .ssh) :
    ∃ frame,
      (transport.wrap address.host.text address.port).Announces frame transport.answers ∧
      transport.unwrap.Hears frame address.canonical := by
  have haddress := Address.ofHostPort_text h
  have hencodable := Address.encodable_of_ofHostPort haddress
  cases transport with
  | compact password =>
    have hrequest := compact_request password address.port hhost h.text_short
    have htakes := Compact.unwrap_takes password hhost h.text_short haddress
    exact ⟨_, Handshake.framed_announces hrequest, htakes.hears⟩
  | trojan password =>
    have hrequest := Trojan.request_eq_ok password haddress
    have htakes := Trojan.unwrap_takes password hencodable
    exact ⟨_, Handshake.framed_announces hrequest, htakes.hears⟩
  | socks5 => exact ⟨_, socks5_announces haddress, socks5_hears hencodable⟩
  | ssh => exact absurd rfl htransport

/-- No transport finds the host text of an address that can be encoded too long. -/
theorem not_tooLong {address : Address} (h : address.Encodable) (transport : Transport) :
    (transport.wrap address.host.text address.port).FailsOnly
      fun error => ∀ length, error ≠ .domainTooLong length := by
  have haddress := Address.ofHostPort_text h
  have hio : ∀ (error : IoError) (length : Nat), ProxyError.io error ≠ .domainTooLong length := by
    rintro _ _ heq
    cases heq
  have hshort : ∀ (written expected length : Nat),
      ProxyError.shortWrite written expected ≠ .domainTooLong length := by
    rintro _ _ _ heq
    cases heq
  have hfault : ∀ (fault : DialFault) (length : Nat),
      ProxyError.dialFailed fault ≠ .domainTooLong length := by
    rintro _ _ heq
    cases heq
  cases transport with
  | compact password =>
    by_cases hhost : address.host.text = ""
    · have hrequest : Compact.request password address.host.text address.port =
          .error (.invalidTarget ⟨address.host.text, address.port⟩) := by
        rw [Compact.request, if_pos hhost]
      rw [wrap, Compact.wrap, hrequest]
      refine Handshake.failsOnly_throw fun _ heq => ?_
      cases heq
    · rw [wrap, Compact.wrap, compact_request password address.port hhost h.text_short]
      exact Handshake.failsOnly_writeFrame _ hio hshort
  | trojan password =>
    rw [wrap, Trojan.wrap, Trojan.request_eq_ok password haddress]
    exact Handshake.failsOnly_writeFrame _ hio hshort
  | socks5 => exact Socks5.wrap_failsOnly hio hfault haddress
  | ssh => exact Handshake.failsOnly_pure ()

end Transport

/-! ## Dialing -/

/-- Only the empty name has no text. -/
theorem Host.text_eq_empty_iff {host : Host} : host.text = "" ↔ host = .domain "" := by
  constructor
  · intro h
    cases host with
    | ipv4 ip =>
      have hread := ip.ofChars?_toString
      rw [show ip.toString = "" from h] at hread
      cases hread
    | ipv6 ip =>
      have hread := ip.ofChars?_toString
      rw [show ip.toString = "" from h] at hread
      cases hread
    | domain name => exact congrArg Host.domain h
  · rintro rfl
    rfl

namespace ProxyDialer

/-- What a dialer opens, writes and hands out for a target that it announces with these bytes, to a
remote that answers those. -/
structure Carries (dialer : ProxyDialer) (target : HostPort) (frame answers : Bytes) : Prop where
  /-- A remote that is not reached in time is nothing to close, and fails by then. -/
  unreached : ∀ network : Network Script,
    (∀ took stream, dialer.link.Reaches network target took stream →
      dialer.connectTimeout < took) →
    ∃ error took, dialer.dial network target = .failed error none took [] ∧
      took ≤ dialer.connectTimeout
  /-- A remote that is reached in time, obliges and answers is handed out, with the frame on it and
  all that comes behind the answers. -/
  reached : ∀ (network : Network Script) (took : Nat) (stream : Script) (rest : Bytes),
    dialer.link.Reaches network target took stream → took ≤ dialer.connectTimeout →
    stream.Obliging → stream.limits.perWrite = none → stream.content = answers ++ rest →
    ∃ after time log, dialer.dial network target = .opened after (took + time) log ∧
      after.received = stream.received ++ frame ∧ after.content = rest
  /-- Nothing else is handed out: what is has the whole frame on it. -/
  opened : ∀ (network : Network Script) (after : Script) (took : Nat) (log : List LogEvent),
    dialer.dial network target = .opened after took log →
    ∃ stream connected, dialer.link.Reaches network target connected stream ∧
      connected ≤ dialer.connectTimeout ∧ after.received = stream.received ++ frame
  /-- Where there was nothing to close, the remote was not reached in time; and a stream on which the
  target could not be announced is closed, with a part of the frame on it. -/
  failed : ∀ (network : Network Script) (error : ProxyError) (closed : Option Script) (took : Nat)
    (log : List LogEvent), dialer.dial network target = .failed error closed took log →
    (closed = none ∧ ∀ took stream, dialer.link.Reaches network target took stream →
      dialer.connectTimeout < took) ∨
    ∃ stream connected after given, closed = some after ∧
      dialer.link.Reaches network target connected stream ∧
      after.received = stream.received ++ given ∧ given <+: frame

section

variable {dialer : ProxyDialer} {network : Network Script} {target : HostPort}

/-- A dial ends with the target refused, with the remote not reached, or with the announcement, which
may be waited for without end. -/
theorem dial_cases (dialer : ProxyDialer) (network : Network Script) (target : HostPort) :
    (∃ error, targetError target = some error ∧
      dialer.dial network target = .failed error none 0 []) ∨
    targetError target = none ∧
      ((∃ took error, dialer.openRemote network target = (took, .error error) ∧
        dialer.dial network target = .failed error none took []) ∨
      ∃ took stream, dialer.openRemote network target = (took, .ok stream) ∧
        match (dialer.transport.wrap target.host target.port).session.run none 0 stream with
        | .waiting _ _ => dialer.dial network target = .pending
        | .finished (.ok _) time after log =>
          dialer.dial network target = .opened after (took + time) log
        | .finished (.error error) time after log =>
          dialer.dial network target =
            .failed error (some after) (took + time) (log ++ [wrapFailed target error])) := by
  cases htarget : targetError target with
  | some error => exact .inl ⟨error, rfl, by simp only [dial, htarget]⟩
  | none =>
    refine .inr ⟨rfl, ?_⟩
    cases hopen : dialer.openRemote network target with
    | mk took result =>
      cases result with
      | error error => exact .inl ⟨took, error, rfl, by simp only [dial, htarget, hopen]⟩
      | ok stream =>
        refine .inr ⟨took, stream, rfl, ?_⟩
        cases hrun : (dialer.transport.wrap target.host target.port).session.run none 0 stream with
        | waiting rest log => simp only [dial, htarget, hopen, Wire.run, hrun]
        | finished result time after log =>
          cases result <;> simp only [dial, htarget, hopen, Wire.run, hrun]

/-- **A dialer carries every target that its transport announces.** -/
theorem carries_of_announces {frame answers : Bytes} (htarget : targetError target = none)
    (h : (dialer.transport.wrap target.host target.port).Announces frame answers) :
    dialer.Carries target frame answers where
  unreached := by
    intro network hlate
    obtain ⟨took, error, hopen, htime⟩ := openRemote_of_unreached hlate
    exact ⟨error, took, by simp only [dial, htarget, hopen], htime⟩
  reached := by
    intro network took stream rest hreaches htime hobliging hwhole hcontent
    obtain ⟨time, after, log, hrun, hrest, hreceived⟩ :=
      h.succeeds stream rest 0 hobliging hwhole hcontent
    have hopen := openRemote_eq_ok_iff.mpr ⟨hreaches, htime⟩
    exact ⟨after, time, log, by simp only [dial, htarget, hopen, Wire.run, hrun], hreceived, hrest⟩
  opened := by
    intro network after took log hdial
    obtain ⟨_, hrefused, -⟩ | ⟨-, ⟨_, _, -, hfailed⟩ | ⟨connected, stream, hopen, hrun⟩⟩ :=
      dial_cases dialer network target
    · rw [htarget] at hrefused
      cases hrefused
    · rw [hdial] at hfailed
      cases hfailed
    · obtain ⟨hreaches, htime⟩ := openRemote_eq_ok_iff.mp hopen
      split at hrun
      · rw [hdial] at hrun
        cases hrun
      · rename_i hfinished
        rw [hdial] at hrun
        cases hrun
        obtain ⟨_, given, -, hreceived, rfl⟩ := h.gives hfinished
        exact ⟨stream, connected, hreaches, htime, hreceived⟩
      · rw [hdial] at hrun
        cases hrun
  failed := by
    intro network error closed took log hdial
    obtain ⟨_, hrefused, -⟩ | ⟨-, ⟨_, _, hopen, hfailed⟩ | ⟨connected, stream, hopen, hrun⟩⟩ :=
      dial_cases dialer network target
    · rw [htarget] at hrefused
      cases hrefused
    · rw [hdial] at hfailed
      cases hfailed
      refine .inl ⟨rfl, fun other stream hreaches => Nat.lt_of_not_le fun htime => ?_⟩
      have hopened := openRemote_eq_ok_iff.mpr ⟨hreaches, htime⟩
      rw [hopen] at hopened
      cases hopened
    · obtain ⟨hreaches, -⟩ := openRemote_eq_ok_iff.mp hopen
      obtain ⟨_, given, -, hreceived, hpart⟩ := h.leaves none 0 stream
      split at hrun
      · rw [hdial] at hrun
        cases hrun
      · rw [hdial] at hrun
        cases hrun
      · rename_i hfinished
        rw [hdial] at hrun
        cases hrun
        rw [hfinished] at hreceived
        exact .inr ⟨stream, connected, _, given, rfl, hreaches, hreceived, hpart⟩

/-- **The causes with which a dial may fail**: the target, the connection to the remote, and
whatever makes the announcement fail. -/
theorem dial_cause {cause : ProxyError → Prop} (htarget : cause (.invalidTarget target))
    (hremote : ∀ fault, cause (.dialFailed fault)) (hio : ∀ error, cause (.io error))
    (hwrap : (dialer.transport.wrap target.host target.port).FailsOnly cause)
    {error : ProxyError} {closed : Option Script} {took : Nat} {log : List LogEvent}
    (h : dialer.dial network target = .failed error closed took log) : cause error := by
  obtain ⟨refusal, hrefusal, hdial⟩ | ⟨-, ⟨_, fault, hopen, hdial⟩ | ⟨_, stream, -, hrun⟩⟩ :=
    dial_cases dialer network target
  · rw [h] at hdial
    cases hdial
    unfold targetError at hrefusal
    split at hrefusal
    · cases hrefusal
      exact htarget
    · cases hrefusal
  · rw [h] at hdial
    cases hdial
    obtain ⟨fault, rfl⟩ | ⟨cause, rfl⟩ := openRemote_fault hopen
    · exact hremote fault
    · exact hio cause
  · split at hrun
    · rw [h] at hrun
      cases hrun
    · rw [h] at hrun
      cases hrun
    · rename_i hfinished
      rw [h] at hrun
      cases hrun
      exact hwrap hfinished

end

end ProxyDialer

/-! ## The hop -/

/-- **A SOCKS5 destination survives the hop.** A destination that a server accepted is refused,
before a connection is opened, if it has no port or no host. Otherwise there is for every transport a
frame that its dialers carry, over whatever link and network: and the server of the same transport
answers the destination for it, told in the one way. Its host text is never too long. -/
theorem Socks5.destination_survives {deadline : Option Nat} {now time : Nat} {script rest : Script}
    {address : Address} {log : List LogEvent}
    (h : Socks5.unwrap.session.run deadline now script = .finished (.ok address) time rest log) :
    (address.port = 0 ∨ address.host = .domain "" →
      ∀ {σ : Type} [Wire σ] (dialer : ProxyDialer) (network : Network σ),
        dialer.dial network address.target = .failed (.invalidTarget address.target) none 0 []) ∧
    (address.port ≠ 0 → address.host ≠ .domain "" →
      ∀ transport : Transport, transport ≠ .ssh →
        ∃ frame, transport.unwrap.Hears frame address.canonical ∧
          ∀ dialer : ProxyDialer, dialer.transport = transport →
            dialer.Carries address.target frame transport.answers) ∧
    ∀ (dialer : ProxyDialer) (network : Network Script) (length : Nat) (closed : Option Script)
      (took : Nat) (log : List LogEvent),
      dialer.dial network address.target ≠ .failed (.domainTooLong length) closed took log := by
  obtain ⟨_, _, _, _, _, hencodable, _⟩ := Socks5.unwrap_ensures h
  have htarget : targetError address.target =
      if address.host = .domain "" ∨ address.port = 0 then some (.invalidTarget address.target)
      else none := by
    simp only [targetError, Address.target, Host.text_eq_empty_iff]
  refine ⟨fun hnone σ _ dialer network => ?_, fun hport hhost transport hkind => ?_,
    fun dialer network length closed took log hdial => ?_⟩
  · rw [ProxyDialer.dial, htarget, if_pos hnone.symm]
  · have htext : address.host.text ≠ "" := fun hempty => hhost (Host.text_eq_empty_iff.mp hempty)
    obtain ⟨frame, hannounces, hhears⟩ := Transport.announces_hears hencodable htext hkind
    refine ⟨frame, hhears, fun dialer hdialer => ?_⟩
    subst hdialer
    exact ProxyDialer.carries_of_announces (htarget.trans (if_neg (not_or.mpr ⟨hhost, hport⟩)))
      hannounces
  · have hwrap := Transport.not_tooLong hencodable dialer.transport
    refine ProxyDialer.dial_cause ?_ ?_ ?_ hwrap hdial length rfl
    · rintro _ heq
      cases heq
    · rintro _ _ heq
      cases heq
    · rintro _ _ heq
      cases heq

/-- A mapped IPv4 address that was accepted as a name in brackets, carried by the trojan transport over
a link with TLS. -/
theorem Socks5.destination_survives_bracketed :
    ∃ time after log,
      Socks5.unwrap.session.run none 0
          (Script.holding {} 0 (greeting ++ request ⟨.domain "[::ffff:10.0.0.1]", 443⟩)) =
        .finished (.ok ⟨.domain "[::ffff:10.0.0.1]", 443⟩) time after log ∧
      ∃ frame, (Trojan.unwrap "key").Hears frame ⟨.ipv4 ⟨10, 0, 0, 1⟩, 443⟩ ∧
        ProxyDialer.Carries ⟨.trojan "key", .tls ⟨"remote.test", 443⟩, 5000⟩
          ⟨"[::ffff:10.0.0.1]", 443⟩ frame [] := by
  have hencodable : Address.Encodable ⟨.domain "[::ffff:10.0.0.1]", 443⟩ := by
    intro name hname
    cases hname
    decide
  have hcanonical : Address.canonical ⟨.domain "[::ffff:10.0.0.1]", 443⟩ =
      ⟨.ipv4 ⟨10, 0, 0, 1⟩, 443⟩ := by decide
  obtain ⟨time, after, log, hrun, _⟩ :=
    Transport.socks5_hears hencodable [] {} 0 0 Script.obliging_empty
  rw [List.append_nil] at hrun
  obtain ⟨frame, hhears, hcarries⟩ := (Socks5.destination_survives hrun).2.1 (by decide) (by decide)
    (.trojan "key") nofun
  rw [hcanonical] at hhears
  exact ⟨time, after, log, hrun, frame, hhears, hcarries ⟨_, .tls ⟨"remote.test", 443⟩, 5000⟩ rfl⟩

end SniffProxy
