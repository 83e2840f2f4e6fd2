import SniffProxy.Proofs.Stream.Deciding
import SniffProxy.Proofs.Transport.Socks5

/-!
# What a SOCKS5 client takes from its server

A client takes the selection and the answer of success with its bound address, and leaves what is
behind them, in whatever pieces they arrive. A server that ends its stream before that makes the
client fail with the stream. That end is reported as the early end of an exact read but in one
place: behind the type byte of a name a single byte is read, and its absence is an unexpected end.

* `Socks5.LengthMissing`, `Socks5.ClientFault` — the place, and the failures of a client.
* `Socks5.wrap_decides` — where a client fails, and what it has said by then.
* `Socks5.Asked` — what a client makes of a server that sends some bytes and then ends its stream.
* `Socks5.wrap_takes_replies` — every server gets just that.
-/

namespace SniffProxy

namespace Socks5

/-! ## Failures of a client -/

/-- The stream ends behind the type byte of a bound name. -/
def LengthMissing (content : Bytes) : Prop :=
  ∃ reserved, content = selection ++ [version, 0, reserved, 3]

/-- The ways in which a client fails whose server ends its stream: a single byte was missing, some
of several were, or the server refused. -/
inductive ClientFault (single : Prop) : ProxyError → Prop where
  | byte (h : single) : ClientFault single (.io .unexpectedEof)
  | bytes (h : ¬ single) : ClientFault single (.io .earlyEof)
  | refused (fault : DialFault) : ClientFault single (.dialFailed fault)

/-- Bytes that end elsewhere. -/
theorem not_lengthMissing {content : Bytes} (h : content.length < 6) : ¬ LengthMissing content := by
  rintro ⟨reserved, rfl⟩
  exact absurd h (by simp [selection])

/-- The place as the part of the answer behind its first four bytes sees it. -/
theorem lengthMissing_iff (reserved typeByte : UInt8) (rest : Bytes) :
    LengthMissing (selection ++ ([version, 0, reserved, typeByte] ++ rest)) ↔
      typeByte = 3 ∧ rest = [] := by
  simp [LengthMissing]

theorem readSelection_decides :
    readSelection.Decides fun content written error =>
      written = [] ∧ ClientFault (LengthMissing content) error := by
  refine (Handshake.decides_readExact 2).bind (Handshake.ensures_readExact 2) ?_ ?_
  · rintro content _ _ ⟨hshort, rfl, rfl⟩
    exact ⟨rfl, .bytes (not_lengthMissing (by omega))⟩
  · rintro _ _ selected ⟨rfl, -, -⟩
    split
    · split
      · exact Handshake.decides_pure ()
      · exact Handshake.decides_throw fun _ => ⟨rfl, .refused _⟩
    · exact Handshake.decides_throw fun _ => ⟨rfl, .refused _⟩

theorem boundLength_decides (typeByte : UInt8) :
    (boundLength typeByte).Decides fun content written error =>
      written = [] ∧ ClientFault (typeByte = 3 ∧ content = []) error := by
  unfold boundLength
  split
  · exact Handshake.decides_pure 6
  · split
    · exact Handshake.decides_pure 18
    · split
      · rename_i hdomain
        refine Handshake.decides_readByte.bind Handshake.ensures_readByte ?_ ?_
        · rintro _ _ _ ⟨rfl, rfl, rfl⟩
          exact ⟨rfl, .byte ⟨hdomain, rfl⟩⟩
        · rintro _ _ length -
          exact Handshake.decides_pure _
      · exact Handshake.decides_throw fun _ => ⟨rfl, .refused _⟩

/-- Skipping a bound address fails with a single byte only if its length byte is missing. -/
theorem skipBound_decides (typeByte : UInt8) :
    Handshake.Decides (do
      let length ← boundLength typeByte
      let _ ← Handshake.readExact length
      return ())
      fun content written error =>
        written = [] ∧ ClientFault (typeByte = 3 ∧ content = []) error := by
  refine (boundLength_decides typeByte).bind (boundLength_ensures typeByte) (fun _ _ _ h => h) ?_
  rintro front _ length ⟨rfl, hfront⟩
  have hbehind : ∀ back, ¬ (typeByte = 3 ∧ front ++ back = []) := by
    rintro back ⟨rfl, hnil⟩
    cases hfront
    cases hnil
  refine (Handshake.decides_readExact length).bind (Handshake.ensures_readExact length) ?_ ?_
  · rintro back _ _ ⟨-, rfl, rfl⟩
    exact ⟨rfl, .bytes (hbehind back)⟩
  · rintro _ _ _ -
    exact Handshake.decides_pure ()

theorem readReply_decides (address : Address) :
    (readReply address).Decides fun content written error =>
      written = [] ∧ ClientFault (LengthMissing (selection ++ content)) error := by
  refine (Handshake.decides_readExact 4).bind (Handshake.ensures_readExact 4) ?_ ?_
  · rintro content _ _ ⟨hshort, rfl, rfl⟩
    have hlength : (selection ++ content).length < 6 := by
      simp only [selection, List.length_append, List.length_cons, List.length_nil]
      omega
    exact ⟨rfl, .bytes (not_lengthMissing hlength)⟩
  · rintro reply _ _ ⟨rfl, rfl, hlength⟩
    match reply, hlength with
    | [first, code, reserved, typeByte], _ =>
      split
      · rename_i hversion
        cases show first = version from hversion
        split
        · rename_i hcode
          cases show code = 0 from hcode
          refine (skipBound_decides typeByte).mono ?_
          rintro rest _ _ ⟨rfl, hfault⟩
          rw [← lengthMissing_iff reserved typeByte rest] at hfault
          exact ⟨rfl, hfault⟩
        · exact Handshake.decides_throw fun _ => ⟨rfl, .refused _⟩
      · exact Handshake.decides_throw fun _ => ⟨rfl, .refused _⟩

/-- **Where a client fails, and what it has said by then**: its request only behind a selection of
its method. -/
theorem wrap_decides {host : String} {port : Port} {address : Address}
    (h : Address.ofHostPort host port = .ok address) :
    (wrap host port).Decides fun content written error =>
      (written = greeting ∨ selection <+: content ∧ written = greeting ++ request address) ∧
        ClientFault (LengthMissing content) error := by
  rw [wrap, h]
  refine .behind [] (Handshake.follows_ofExcept address) ?_
  refine .behind greeting (Handshake.follows_writeAll greeting) ?_
  refine readSelection_decides.bind readSelection_ensures ?_ ?_
  · rintro content _ _ ⟨rfl, hfault⟩
    exact ⟨.inl (List.append_nil _), hfault⟩
  rintro _ _ _ ⟨rfl, rfl⟩
  refine .behind (request address) (Handshake.follows_writeAll _) ?_
  refine .behind [] Handshake.follows_flush ?_
  refine (readReply_decides _).mono ?_
  rintro content _ _ ⟨rfl, hfault⟩
  exact ⟨.inr ⟨List.prefix_append _ _, by simp⟩, hfault⟩

/-! ## Replies -/

/-- A client takes a reply to its end and no further. -/
theorem wrap_endsWithin {host : String} {port : Port} {address : Address}
    (haddress : Address.ofHostPort host port = .ok address) {reply : Bytes} (h : IsReply reply)
    (rest : Bytes) :
    (wrap host port).session.EndsWithin (reply ++ rest)
      ⟨.ok (), rest, greeting ++ request address⟩ := by
  obtain ⟨reserved, typeByte, front, bound, hbound, rfl⟩ := h
  have hwithin := Session.Follows.endsWithin (wrap_follows_reply haddress hbound reserved) rest
  simpa using hwithin

/-- The place where a single byte is missing is in the middle of a reply. -/
theorem LengthMissing.isPrefix {content : Bytes} (h : LengthMissing content) :
    ∃ reply, IsReply reply ∧ content <+: reply ∧ content ≠ reply := by
  obtain ⟨reserved, rfl⟩ := h
  have hbound : BoundLength 3 [0] ([0, 0] : Bytes).length := .domain 0
  refine ⟨_, ⟨reserved, 3, _, _, hbound, rfl⟩, ⟨[0, 0, 0], rfl⟩, ?_⟩
  simp [selection]

section

variable {host : String} {port : Port} {address : Address}
  (haddress : Address.ofHostPort host port = .ok address) {content : Bytes}
  {ending : Ending (Except ProxyError Unit)}
  (hends : (wrap host port).session.EndsAs content ending)

include haddress hends

theorem wrap_succeeded (hresult : ending.result = .ok ()) :
    ∃ reply, IsReply reply ∧ content = reply ++ ending.unread ∧
      ending.written = greeting ++ request address := by
  obtain ⟨taken, hcontent, hwritten, hreply⟩ := (wrap_ensures haddress).of_endsAs hends hresult
  exact ⟨taken, hreply, hcontent, hwritten⟩

theorem wrap_succeeds {reply : Bytes} (hreply : IsReply reply) (hfront : reply <+: content) :
    ending.result = .ok () := by
  obtain ⟨rest, rfl⟩ := hfront
  exact congrArg Ending.result (hends.unique (wrap_endsWithin haddress hreply rest).endsAs)

/-- A client whose reply is cut short fails with its stream. -/
theorem wrap_truncated {reply : Bytes} (hreply : IsReply reply) (hfront : content <+: reply)
    (hne : content ≠ reply) :
    ∃ cause, ending.result = .error (.io cause) ∧
      ClientFault (LengthMissing content) (.io cause) := by
  have hwhole := (wrap_endsWithin haddress hreply []).endsAs
  rw [List.append_nil] at hwhole
  obtain ⟨cause, hresult, -, hfault⟩ :=
    (wrap_decides haddress).of_isPrefix hwhole hfront hne hends
  exact ⟨cause, hresult, hfault⟩

/-- One whose reply ends where a single byte is missing. -/
theorem wrap_lengthMissing (hmissing : LengthMissing content) :
    ending.result = .error (.io .unexpectedEof) := by
  obtain ⟨reply, hreply, hfront, hne⟩ := hmissing.isPrefix
  obtain ⟨cause, hresult, hfault⟩ := wrap_truncated haddress hends hreply hfront hne
  cases hfault with
  | byte _ => exact hresult
  | bytes helsewhere => exact absurd hmissing helsewhere

end

/-- What a client with this address makes of a server that sends this content and then ends its
stream. -/
structure Asked (address : Address) (content : Bytes) (ending : Ending (Except ProxyError Unit)) :
    Prop where
  /-- The client succeeds if the content begins with a reply. -/
  succeeds_iff : ending.result = .ok () ↔ ∃ reply, IsReply reply ∧ reply <+: content
  /-- It takes the reply and leaves what is behind. -/
  succeeded : ending.result = .ok () → ∃ reply, IsReply reply ∧ content = reply ++ ending.unread ∧
    ending.written = greeting ++ request address
  /-- It sends its request only behind the selection. -/
  requested : ending.written = greeting ∨
    selection <+: content ∧ ending.written = greeting ++ request address
  /-- A reply that is cut short anywhere else than in front of the length byte of a name. -/
  truncated : ∀ reply, IsReply reply → content <+: reply → content ≠ reply →
    ¬ LengthMissing content → ending.result = .error (.io .earlyEof)
  /-- One that is cut short there. -/
  lengthMissing : LengthMissing content → ending.result = .error (.io .unexpectedEof)
  /-- Every failure is that of the stream or a refusal. -/
  failed : ∀ error, ending.result = .error error →
    error = .io .earlyEof ∨ (LengthMissing content ∧ error = .io .unexpectedEof) ∨
      ∃ fault, error = .dialFailed fault

/-- **A client takes just the reply**: whatever a server sends before it ends its stream, what the
client answers, writes and leaves unread follows from the bytes alone, in whatever pieces they
arrive. A host that has no address is refused before anything is read or written. -/
theorem wrap_takes_replies (host : String) (port : Port) :
    (∀ address, Address.ofHostPort host port = .ok address → ∀ content, ∃ ending,
      (wrap host port).session.EndsAs content ending ∧ Asked address content ending) ∧
    (∀ error, Address.ofHostPort host port = .error error → ∀ deadline now script,
      (wrap host port).session.run deadline now script =
        .finished (.error error) now script []) ∧
    IoError.earlyEof.message = "early eof" ∧
    IoError.unexpectedEof.message = "unexpected end of file" := by
  refine ⟨fun address haddress content => ?_, fun error herror deadline now script => ?_, rfl, rfl⟩
  · obtain ⟨ending, hends, hfails⟩ := (wrap_decides haddress).exists_endsAs content
    refine ⟨ending, hends, ⟨fun hresult => ?_, ?_⟩, wrap_succeeded haddress hends, ?_, ?_,
      wrap_lengthMissing haddress hends, ?_⟩
    · obtain ⟨reply, hreply, hcontent, _⟩ := wrap_succeeded haddress hends hresult
      exact ⟨reply, hreply, ending.unread, hcontent.symm⟩
    · rintro ⟨reply, hreply, hfront⟩
      exact wrap_succeeds haddress hends hreply hfront
    · cases hresult : ending.result with
      | ok value =>
        obtain ⟨reply, ⟨_, _, _, _, _, rfl⟩, hcontent, hwritten⟩ :=
          wrap_succeeded haddress hends hresult
        refine .inr ⟨?_, hwritten⟩
        rw [hcontent, List.append_assoc]
        exact List.prefix_append _ _
      | error error => exact (hfails error hresult).1
    · intro reply hreply hfront hne helsewhere
      obtain ⟨cause, hresult, hfault⟩ := wrap_truncated haddress hends hreply hfront hne
      cases hfault with
      | byte hmissing => exact absurd hmissing helsewhere
      | bytes _ => exact hresult
    · intro error herror
      cases (hfails error herror).2 with
      | byte hmissing => exact .inr (.inl ⟨hmissing, rfl⟩)
      | bytes _ => exact .inl rfl
      | refused fault => exact .inr (.inr ⟨fault, rfl⟩)
  · rw [wrap, herror]
    rfl

theorem wrap_takes_replies_namedBound :
    (∃ ending, (wrap "h" 80).session.EndsAs [5, 0, 5, 0, 7, 3, 1, 104, 1, 187, 72, 105] ending ∧
      ending.result = .ok () ∧
      ending.written = [5, 1, 0] ++ [5, 1, 0, 3, 1, 104, 0, 80]) ∧
    (∃ ending, (wrap "h" 80).session.EndsAs [5, 0, 5, 0, 7, 3, 1] ending ∧
      ending.result = .error (.io .earlyEof)) ∧
    (∃ ending, (wrap "h" 80).session.EndsAs [5, 0, 5, 0, 7, 3] ending ∧
      ending.result = .error (.io .unexpectedEof)) ∧
    (wrap (String.ofList (List.replicate 256 'a')) 80).session.run none 0 {} =
      .finished (.error (.domainTooLong 256)) 0 {} [] := by
  have haddress : Address.ofHostPort "h" 80 = .ok ⟨.domain "h", 80⟩ := by decide
  have hbound : BoundLength 3 [1] ([104, 1, 187] : Bytes).length := .domain 1
  have hreply : IsReply [5, 0, 5, 0, 7, 3, 1, 104, 1, 187] := ⟨7, 3, _, _, hbound, rfl⟩
  have hasked := (wrap_takes_replies "h" 80).1 _ haddress
  refine ⟨?_, ?_, ?_, ?_⟩
  · obtain ⟨ending, hends, hending⟩ := hasked [5, 0, 5, 0, 7, 3, 1, 104, 1, 187, 72, 105]
    have hresult := hending.succeeds_iff.mpr ⟨_, hreply, [72, 105], rfl⟩
    obtain ⟨_, _, _, hwritten⟩ := hending.succeeded hresult
    exact ⟨ending, hends, hresult, hwritten⟩
  · obtain ⟨ending, hends, hending⟩ := hasked [5, 0, 5, 0, 7, 3, 1]
    have helsewhere : ¬ LengthMissing [5, 0, 5, 0, 7, 3, 1] := by
      rintro ⟨reserved, hcontent⟩
      exact absurd (congrArg List.length hcontent) (by simp [selection])
    exact ⟨ending, hends,
      hending.truncated _ hreply ⟨[104, 1, 187], rfl⟩ (by decide) helsewhere⟩
  · obtain ⟨ending, hends, hending⟩ := hasked [5, 0, 5, 0, 7, 3]
    exact ⟨ending, hends, hending.lengthMissing ⟨7, rfl⟩⟩
  · have hchar : 'a'.utf8Size = 1 := by decide
    have hlength : ∀ n, (utf8 (String.ofList (List.replicate n 'a'))).length = n := by
      intro n
      rw [utf8_ofList]
      simp [List.length_flatMap, hchar]
    have hlong : maxDomainLength < (utf8 (String.ofList (List.replicate 256 'a'))).length := by
      rw [hlength]
      decide
    have herror := Address.ofHostPort_long hlong 80
    rw [hlength] at herror
    exact (wrap_takes_replies _ 80).2.1 _ herror none 0 {}

/-- Not every reply that is cut short is an early end: behind the type byte of a name it is an
unexpected one. -/
theorem wrap_truncated_not_earlyEof :
    ¬ ∀ (host : String) (port : Port) (address : Address),
      Address.ofHostPort host port = .ok address →
      ∀ reply content, IsReply reply → content <+: reply → content ≠ reply →
        ∀ ending, (wrap host port).session.EndsAs content ending →
          ending.result = .error (.io .earlyEof) := by
  intro hall
  have haddress : Address.ofHostPort "h" 80 = .ok ⟨.domain "h", 80⟩ := by decide
  have hmissing : LengthMissing [5, 0, 5, 0, 0, 3] := ⟨0, rfl⟩
  obtain ⟨reply, hreply, hfront, hne⟩ := hmissing.isPrefix
  obtain ⟨ending, hends, -⟩ := (wrap_decides haddress).exists_endsAs [5, 0, 5, 0, 0, 3]
  have hearly := hall "h" 80 _ haddress reply _ hreply hfront hne ending hends
  rw [wrap_lengthMissing haddress hends hmissing] at hearly
  cases hearly

end Socks5

end SniffProxy
