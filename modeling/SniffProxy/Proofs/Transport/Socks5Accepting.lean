import SniffProxy.Proofs.Stream.Deciding
import SniffProxy.Proofs.Transport.Socks5

/-!
# What a SOCKS5 server accepts

A server accepts a client just if its bytes begin with a handshake. It takes the handshake and no
more, in whatever pieces it arrives. A handshake that is cut short is reported as such, wherever the
cut is, and a client that is not accepted never gets the reply.

* `Socks5.serve_decides` — the failures of a server.
* `Socks5.Answered` — what a client gets that sends some bytes and then ends its stream.
* `Socks5.unwrap_answers` — every client gets just that.
-/

namespace SniffProxy

/-! ## Failures of a server -/

/-- Reading so many bytes as an address fails for what they are or because some are missing. -/
theorem Address.decode_decides (decode : Bytes → Option Address) (fault : HeaderFault)
    (count : Nat) :
    Handshake.Decides (do
      let bytes ← Handshake.readExact count
      match decode bytes with
      | some address => return address
      | none => throw (.malformedHeader fault)) Handshake.Untold := by
  refine (Handshake.decides_readExact_untold count).bind (Handshake.ensures_readExact count)
    (fun _ _ _ h => h) ?_
  rintro _ _ bytes ⟨rfl, -, -⟩
  split
  · exact Handshake.decides_pure _
  · exact Handshake.decides_throw fun _ => ⟨rfl, nofun⟩

theorem Address.readBody_decides (typeByte : UInt8) :
    (readBody typeByte).Decides Handshake.Untold := by
  unfold readBody
  split
  · exact decode_decides ofIpv4Body _ 6
  · split
    · exact decode_decides ofIpv6Body _ 18
    · split
      · refine Handshake.decides_readByte_untold.bind Handshake.ensures_readByte
          (fun _ _ _ h => h) ?_
        rintro _ _ length ⟨rfl, -⟩
        exact decode_decides (ofDomainBody length.toNat) _ (length.toNat + 2)
      · exact Handshake.decides_throw fun _ => ⟨rfl, nofun⟩

namespace Socks5

theorem negotiate_decides : negotiate.Decides Handshake.Untold := by
  refine (Handshake.decides_readExact_untold 2).bind (Handshake.ensures_readExact 2)
    (fun _ _ _ h => h) ?_
  rintro _ _ greeting ⟨rfl, -, -⟩
  split
  · refine (Handshake.decides_readExact_untold _).bind (Handshake.ensures_readExact _)
      (fun _ _ _ h => h) ?_
    rintro _ _ methods ⟨rfl, -, -⟩
    split
    · exact Handshake.decides_writeAll selection
    · exact Handshake.decides_throw fun _ => ⟨rfl, nofun⟩
  · exact Handshake.decides_throw fun _ => ⟨rfl, nofun⟩

theorem readRequest_decides : readRequest.Decides Handshake.Untold := by
  refine (Handshake.decides_readExact_untold 4).bind (Handshake.ensures_readExact 4)
    (fun _ _ _ h => h) ?_
  rintro _ _ header ⟨rfl, -, -⟩
  split
  · split
    · dsimp only
      split
      · exact Address.readBody_decides _
      · exact Handshake.decides_throw fun _ => ⟨rfl, nofun⟩
    · exact Handshake.decides_throw fun _ => ⟨rfl, nofun⟩
  · exact Handshake.decides_throw fun _ => ⟨rfl, nofun⟩

/-- **How a server fails**: before it writes the reply, and with its stream only if that ends too
early. -/
theorem serve_decides :
    serve.Decides fun _ written error =>
      (written = [] ∨ written = selection) ∧
        ∀ cause, error = .io cause → cause.isEndOfStream = true := by
  refine negotiate_decides.bind negotiate_ensures ?_ ?_
  · rintro _ _ _ ⟨rfl, hcause⟩
    exact ⟨.inl rfl, hcause⟩
  · rintro _ _ _ ⟨rfl, -⟩
    refine readRequest_decides.bind readRequest_ensures ?_ ?_
    · rintro _ _ _ ⟨rfl, hcause⟩
      exact ⟨.inr (List.append_nil _), hcause⟩
    · rintro _ _ address -
      refine .behind successReply (Handshake.follows_writeAll successReply) ?_
      refine .behind [] Handshake.follows_flush ?_
      exact Handshake.decides_pure address

/-! ## Handshakes -/

/-- A server takes a handshake to its end and no further. -/
theorem serve_endsWithin {handshake : Bytes} {address : Address}
    (h : IsHandshake handshake address) (rest : Bytes) :
    serve.session.EndsWithin (handshake ++ rest)
      ⟨.ok address, rest, selection ++ successReply⟩ := by
  obtain ⟨hencodable, methods, count, reserved, hcount, hmethod, rfl⟩ := h
  have hwithin :=
    Session.Follows.endsWithin (serve_follows hcount hmethod hencodable reserved) rest
  simpa using hwithin

/-- An end of the stream in the middle of a handshake is reported as a truncated request. -/
theorem explain_endOfStream {cause : IoError} (h : cause.isEndOfStream = true) :
    explain (.io cause) = .sniffParse .truncatedSocksRequest := if_pos h

section

variable {content : Bytes} {ending : Ending (Except ProxyError Address)}
  (hends : serve.session.EndsAs content ending)

include hends

theorem serve_accepted {address : Address} (hresult : ending.result = .ok address) :
    ∃ handshake, IsHandshake handshake address ∧ content = handshake ++ ending.unread ∧
      ending.written = selection ++ successReply := by
  have hunwrap := Handshake.endsAs_adapt hends explain
  obtain ⟨taken, hcontent, hwritten, hhandshake⟩ :=
    unwrap_ensures.of_endsAs hunwrap (congrArg (Except.mapError explain) hresult)
  exact ⟨taken, hhandshake, hcontent, hwritten⟩

theorem serve_accepts {handshake : Bytes} {address : Address}
    (hhandshake : IsHandshake handshake address) (hfront : handshake <+: content) :
    ending.result = .ok address := by
  obtain ⟨rest, rfl⟩ := hfront
  exact congrArg Ending.result (hends.unique (serve_endsWithin hhandshake rest).endsAs)

theorem serve_truncated {handshake : Bytes} {address : Address}
    (hhandshake : IsHandshake handshake address) (hfront : content <+: handshake)
    (hne : content ≠ handshake) :
    ∃ cause, ending.result = .error (.io cause) ∧ cause.isEndOfStream = true := by
  have hwhole := (serve_endsWithin hhandshake []).endsAs
  rw [List.append_nil] at hwhole
  obtain ⟨cause, hresult, -, hcause⟩ := serve_decides.of_isPrefix hwhole hfront hne hends
  exact ⟨cause, hresult, hcause cause rfl⟩

end

/-- What a client gets that sends this content and then ends its stream. -/
structure Answered (content : Bytes) (ending : Ending (Except ProxyError Address)) : Prop where
  /-- A client is accepted if it begins with a handshake, and for its address. -/
  accepts_iff : ∀ address, ending.result = .ok address ↔
    ∃ handshake, IsHandshake handshake address ∧ handshake <+: content
  /-- The handshake is taken and the payload behind it is not. -/
  accepted : ∀ address, ending.result = .ok address →
    ∃ handshake, IsHandshake handshake address ∧ content = handshake ++ ending.unread ∧
      ending.written = selection ++ successReply
  /-- A handshake that is cut short, wherever it is cut. -/
  truncated : ∀ handshake address, IsHandshake handshake address → content <+: handshake →
    content ≠ handshake → ending.result = .error (.sniffParse .truncatedSocksRequest)
  /-- No failure gets the reply. -/
  refused : ∀ error, ending.result = .error error →
    ending.written = [] ∨ ending.written = selection

/-- **A server accepts handshakes and nothing else**: whatever a client sends before it ends its
stream, what the server answers, writes and leaves unread follows from the bytes alone, in whatever
pieces they arrive and however the answers are taken. -/
theorem unwrap_answers :
    SniffFault.truncatedSocksRequest.message = "truncated SOCKS5 request" ∧
    ∀ content, ∃ ending, unwrap.session.EndsAs content ending ∧ Answered content ending := by
  refine ⟨rfl, fun content => ?_⟩
  obtain ⟨ending, hserve, hfails⟩ := serve_decides.exists_endsAs content
  have haccepted : ∀ address, ending.result.mapError explain = .ok address →
      ending.result = .ok address := by
    intro address hresult
    cases hserved : ending.result with
    | ok found =>
      rw [hserved] at hresult
      exact hresult
    | error error =>
      rw [hserved] at hresult
      cases hresult
  refine ⟨_, Handshake.endsAs_adapt hserve explain, fun address => ⟨fun hresult => ?_, ?_⟩,
    fun address hresult => serve_accepted hserve (haccepted address hresult), ?_, ?_⟩
  · obtain ⟨handshake, hhandshake, hcontent, _⟩ :=
      serve_accepted hserve (haccepted address hresult)
    exact ⟨handshake, hhandshake, ending.unread, hcontent.symm⟩
  · rintro ⟨handshake, hhandshake, hfront⟩
    exact congrArg (Except.mapError explain) (serve_accepts hserve hhandshake hfront)
  · intro handshake address hhandshake hfront hne
    obtain ⟨cause, hresult, hcause⟩ := serve_truncated hserve hhandshake hfront hne
    rw [← explain_endOfStream hcause]
    exact congrArg (Except.mapError explain) hresult
  · intro error herror
    cases hserved : ending.result with
    | ok address =>
      rw [hserved] at herror
      cases herror
    | error cause => exact (hfails cause hserved).1

/-- A handshake for a name, with two methods and a reserved byte that is not zero. -/
def exampleHandshake : Bytes :=
  [5, 2, 2, 0, 5, 1, 7, 3, 1, 104, 0, 80]

/-- A client that sends payload at once, and one that ends its stream before the name. -/
theorem unwrap_answers_exampleHandshake :
    (∃ ending, unwrap.session.EndsAs (exampleHandshake ++ [71, 69, 84]) ending ∧
      ending.result = .ok ⟨.domain "h", 80⟩ ∧ ending.written = selection ++ successReply) ∧
    ∃ ending, unwrap.session.EndsAs (exampleHandshake.take 9) ending ∧
      ending.result = .error (.sniffParse .truncatedSocksRequest) ∧
      ending.written ≠ selection ++ successReply := by
  have hhandshake : IsHandshake exampleHandshake ⟨.domain "h", 80⟩ := by
    refine ⟨?_, [2, 0], 2, 7, rfl, by decide, by decide⟩
    rintro _ ⟨⟩
    decide
  refine ⟨?_, ?_⟩
  · obtain ⟨ending, hends, hanswered⟩ := unwrap_answers.2 (exampleHandshake ++ [71, 69, 84])
    have hresult := (hanswered.accepts_iff _).mpr ⟨_, hhandshake, _, rfl⟩
    obtain ⟨_, _, _, hwritten⟩ := hanswered.accepted _ hresult
    exact ⟨ending, hends, hresult, hwritten⟩
  · obtain ⟨ending, hends, hanswered⟩ := unwrap_answers.2 (exampleHandshake.take 9)
    have hresult := hanswered.truncated _ _ hhandshake (List.take_prefix 9 _) (by decide)
    refine ⟨ending, hends, hresult, ?_⟩
    obtain hwritten | hwritten := hanswered.refused _ hresult
    · rw [hwritten]
      decide
    · rw [hwritten]
      decide

end Socks5

end SniffProxy
