import SniffProxy.Proofs.Stream.Ensuring
import SniffProxy.Proofs.Transport.Fragments

/-!
# What a compact server accepts

A compact server accepts the requests of its password and nothing else, and every request has an
address. Whatever else comes behind the key is refused with what is wrong with it.

* `Compact.unwrap_ensures` — only requests are accepted, on streams cut in any way.
* `Compact.Faulty` — what can be wrong behind the key; `Compact.Faulty.settles` refuses just so.
* `Compact.request_or_faulty` — behind the key there is a request, or something is wrong.
* `Compact.unwrap_accepts_exactly` — all of it, for the bytes of one event.
-/

namespace SniffProxy.Compact

variable {password : String}

/-! ## Only requests -/

/-- A head of the right length with the key in front is made up of the key and four bytes. -/
theorem head_eq {head : Bytes} (hlength : head.length = headLength)
    (hkey : head.take 16 = key password) :
    ∃ command high low length, head = key password ++ [command, high, low, length] := by
  have hlast : (head.drop 16).length = 4 := by
    rw [List.length_drop, hlength]
    rfl
  match hfour : head.drop 16, hlast with
  | [command, high, low, length], _ =>
    exact ⟨command, high, low, length, by rw [← hkey, ← hfour, List.take_append_drop]⟩

/-- A length byte and the bytes of a host text that it announces. -/
theorem isRequest_of_decodeUtf8 (password : String) (high low : UInt8) {length : UInt8}
    {bytes : Bytes} {host : String} (hpos : length.toNat ≠ 0) (hlength : bytes.length = length.toNat)
    (hhost : decodeUtf8 bytes = some host) :
    IsRequest password (key password ++ [connectByte, high, low, length] ++ bytes) host
      (Port.ofBytes high low) := by
  have hbytes : utf8 host = bytes := utf8_of_decodeUtf8 hhost
  have hbound := length.toNat_lt
  refine ⟨?_, ?_, ?_⟩
  · rintro rfl
    rw [← hlength, ← hbytes] at hpos
    exact hpos rfl
  · rw [hbytes, hlength, maxDomainLength]
    omega
  · rw [hbytes, hlength, UInt8.ofNat_toNat, Port.toBytes_ofBytes, List.append_assoc,
      List.append_assoc]
    rfl

theorem behindHead_ensures (password : String) (command high low length : UInt8) :
    (behindHead command high low length).Ensures fun taken given address => given = [] ∧
      ∃ host port,
        IsRequest password (key password ++ [command, high, low, length] ++ taken) host port ∧
          Address.ofHostPort host port = .ok address := by
  unfold behindHead
  split
  · rename_i hcommand
    split
    · exact Handshake.ensures_throw _
    · rename_i hpos
      refine (Handshake.ensures_readOnce length.toNat).bind ?_
      rintro bytes _ _ ⟨rfl, rfl, hlength⟩
      split
      · rename_i host hhost
        refine Handshake.ensures_ofExcept fun address haddress => ⟨rfl, host, _, ?_, haddress⟩
        rw [hcommand, List.append_nil]
        exact isRequest_of_decodeUtf8 password high low hpos hlength hhost
      · exact Handshake.ensures_throw _
  · exact Handshake.ensures_throw _

/-- **Only requests are accepted**: on every stream, the bytes taken before an address was answered
are a request whose host text is classified to it. Nothing is written. -/
theorem unwrap_ensures (password : String) :
    (unwrap password).Ensures fun taken given address => given = [] ∧
      ∃ host port, IsRequest password taken host port ∧
        Address.ofHostPort host port = .ok address := by
  rw [unwrap_eq]
  refine (Handshake.ensures_readOnce headLength).bind ?_
  rintro head _ _ ⟨rfl, rfl, hlength⟩
  split
  · rename_i hkey
    obtain ⟨command, high, low, length, rfl⟩ := head_eq hlength hkey
    obtain ⟨-, -, hcommand, hhigh, hlow, hlast⟩ := head_fields password command high low length
    rw [hcommand, hhigh, hlow, hlast]
    exact behindHead_ensures password command high low length
  · exact Handshake.ensures_throw _

/-- **Every request is for some address**: a host text that a length byte can announce is never
refused. -/
theorem IsRequest.exists_address {frame : Bytes} {host : String} {port : Port}
    (h : IsRequest password frame host port) :
    ∃ address, Address.ofHostPort host port = .ok address := by
  obtain ⟨address, haddress, -⟩ := Address.ofHostPort_short h.2.1 port
  exact ⟨address, haddress⟩

/-! ## Everything else -/

/-- What is wrong with the bytes behind the key: they do not reach to the length byte, the command
is another, the host is empty, shorter than announced, or no text. -/
inductive Faulty : Bytes → HeaderFault → Prop
  | shortHead {tail : Bytes} : tail.length < 4 → Faulty tail .shortRead
  | command {command high low length : UInt8} {rest : Bytes} : command ≠ connectByte →
      Faulty (command :: high :: low :: length :: rest) .invalidCompactCommand
  | emptyHost {high low : UInt8} {rest : Bytes} :
      Faulty (connectByte :: high :: low :: 0 :: rest) .emptyHost
  | shortHost {high low length : UInt8} {rest : Bytes} : rest.length < length.toNat →
      Faulty (connectByte :: high :: low :: length :: rest) .shortRead
  | encoding {high low length : UInt8} {bytes rest : Bytes} : length.toNat ≠ 0 →
      bytes.length = length.toNat → decodeUtf8 bytes = none →
      Faulty (connectByte :: high :: low :: length :: (bytes ++ rest)) .invalidHostEncoding

/-- The four wordings of what can be wrong. -/
theorem Faulty.message_mem {tail : Bytes} {fault : HeaderFault} (h : Faulty tail fault) :
    fault.message ∈
      ["short read", "invalid sower command", "empty host", "invalid host encoding"] := by
  cases h <;> decide

/-- **Behind the key there is a request, or something is wrong.** -/
theorem request_or_faulty (password : String) (tail : Bytes) :
    (∃ frame rest host port,
      key password ++ tail = frame ++ rest ∧ IsRequest password frame host port) ∨
    ∃ fault, Faulty tail fault := by
  match tail with
  | [] | [_] | [_, _] | [_, _, _] => exact .inr ⟨_, .shortHead (by simp)⟩
  | command :: high :: low :: length :: rest =>
    by_cases hcommand : command = connectByte
    · subst hcommand
      by_cases hzero : length.toNat = 0
      · have hlength : length = 0 := UInt8.toNat_inj.mp hzero
        subst hlength
        exact .inr ⟨_, .emptyHost⟩
      · by_cases hshort : rest.length < length.toNat
        · exact .inr ⟨_, .shortHost hshort⟩
        · have hcount : (rest.take length.toNat).length = length.toNat :=
            List.length_take_of_le (Nat.le_of_not_lt hshort)
          rw [← List.take_append_drop length.toNat rest]
          cases hhost : decodeUtf8 (rest.take length.toNat) with
          | none => exact .inr ⟨_, .encoding hzero hcount hhost⟩
          | some host =>
            have hrequest := isRequest_of_decodeUtf8 password high low hzero hcount hhost
            exact .inl ⟨_, rest.drop length.toNat, host, _, by simp, hrequest⟩
    · exact .inr ⟨_, .command hcommand⟩

section

variable {script : Script} {due : Nat} {tail rest : Bytes} {fault : HeaderFault}

/-- An event that reaches behind the head settles what the server does by the rest of it. -/
theorem settles_unwrap (password : String) {command high low length : UInt8} {left : List Piece}
    {result : Except ProxyError Address} {log : List LogEvent}
    (h : (behindHead command high low length).Settles script (Piece.single due rest) result left
      log) :
    (unwrap password).Settles script
      (Piece.single due (key password ++ command :: high :: low :: length :: rest)) result left
      log := by
  obtain ⟨hlength, htake, hcommand, hhigh, hlow, hlast⟩ :=
    head_fields password command high low length
  have hbytes : key password ++ command :: high :: low :: length :: rest =
      (key password ++ [command, high, low, length]) ++ rest := by
    simp
  have hhead := Handshake.settles_readOnce (by decide)
    (Piece.take?_single_append (by decide) due hlength rest) script
  rw [hbytes, unwrap_eq]
  refine hhead.bind ?_
  rw [if_pos htake, hcommand, hhigh, hlow, hlast]
  exact h

theorem Faulty.settles_shortHead (hshort : tail.length < 4) (password : String) :
    (unwrap password).Settles script (Piece.single due (key password ++ tail))
      (.error (.malformedHeader .shortRead)) (Piece.single due (key password ++ tail)).tail [] := by
  have hkey := length_key password
  have hpieces : Piece.single due (key password ++ tail) ≠ [] := by
    intro hnil
    have hempty := congrArg (fun pieces => (Piece.content pieces).length) hnil
    simp [hkey] at hempty
  have hnone : Piece.take? headLength (Piece.single due (key password ++ tail)) = none := by
    rw [Piece.take?_single (by decide), if_neg (by simp [hkey, headLength]; omega)]
  exact (Handshake.settles_readOnce_short (by decide) hnone (.inl hpieces)).bind_error _

/-- **What is wrong is what the server fails with.** Only where an announced host is missing
altogether does it depend on the end of the stream: a server waits for more. -/
theorem Faulty.settles (h : Faulty tail fault) (password : String) (due : Nat)
    (hend : tail.length ≠ 4 ∨ script.Ended) :
    ∃ left, (unwrap password).Settles script (Piece.single due (key password ++ tail))
      (.error (.malformedHeader fault)) left [] := by
  cases h with
  | shortHead hshort => exact ⟨_, settles_shortHead hshort password⟩
  | @command command high low length rest hcommand =>
    refine ⟨Piece.single due rest, settles_unwrap password ?_⟩
    rw [behindHead, if_neg hcommand]
    exact Handshake.settles_throw _
  | @emptyHost high low rest =>
    refine ⟨Piece.single due rest, settles_unwrap password ?_⟩
    exact Handshake.settles_throw _
  | @shortHost high low length rest hshort =>
    have hnone : Piece.take? length.toNat (Piece.single due rest) = none := by
      rw [Piece.take?_single (by omega), if_neg (by omega)]
    have hpieces : Piece.single due rest ≠ [] ∨ script.Ended := by
      refine hend.imp_left fun hlength hnil => ?_
      have hempty := congrArg Piece.content hnil
      rw [Piece.content_single] at hempty
      subst hempty
      exact hlength rfl
    refine ⟨(Piece.single due rest).tail, settles_unwrap password ?_⟩
    rw [behindHead, if_pos rfl, if_neg (by omega)]
    exact (Handshake.settles_readOnce_short (by omega) hnone hpieces).bind_error _
  | @encoding high low length bytes rest hpos hlength hnone =>
    have htake := Piece.take?_single_append (Nat.pos_of_ne_zero hpos) due hlength rest
    refine ⟨Piece.single due rest, settles_unwrap password ?_⟩
    rw [behindHead, if_pos rfl, if_neg hpos]
    refine (Handshake.settles_readOnce (Nat.pos_of_ne_zero hpos) htake script).bind ?_
    rw [hnone]
    exact Handshake.settles_throw _

end

/-! ## Both -/

/-- **A compact server accepts exactly its requests.** Of bytes that arrive as one event, it answers
an address and leaves a rest just when they are a request for a host text that is classified to that
address, and the rest; and every request is for some address. Bytes with the key that do not start
with a request make the server fail with what is wrong behind the key. That a host is announced of
which nothing is there, it learns from the end of the stream. -/
theorem unwrap_accepts_exactly (password : String) :
    (key password).length = 16 ∧
    (∀ (frame : Bytes) (host : String) (port : Port), IsRequest password frame host port →
      ∃ address, Address.ofHostPort host port = .ok address) ∧
    (∀ (script : Script) (due now : Nat) (bytes rest : Bytes) (address : Address),
      (∃ time after log, (unwrap password).session.run none now (script.holding due bytes) =
          .finished (.ok address) time after log ∧ after.content = rest ++ script.content) ↔
        ∃ frame host port, bytes = frame ++ rest ∧ IsRequest password frame host port ∧
          Address.ofHostPort host port = .ok address) ∧
    ∀ (script : Script) (due now : Nat) (tail : Bytes), tail.length ≠ 4 ∨ script.Ended →
      (∃ frame rest host port,
        key password ++ tail = frame ++ rest ∧ IsRequest password frame host port) ∨
      ∃ fault, Faulty tail fault ∧
        fault.message ∈
          ["short read", "invalid sower command", "empty host", "invalid host encoding"] ∧
        (unwrap password).resultOn now (script.holding due (key password ++ tail)) =
          some (.error (.malformedHeader fault)) := by
  refine ⟨length_key password, fun _ _ _ => IsRequest.exists_address,
    fun script due now bytes rest address => ⟨?_, ?_⟩, fun script due now tail hend => ?_⟩
  · rintro ⟨time, after, log, hrun, hrest⟩
    obtain ⟨taken, _, hcontent, _, _, host, port, hrequest, haddress⟩ :=
      unwrap_ensures password hrun
    rw [Script.holding_content, hrest, ← List.append_assoc] at hcontent
    exact ⟨taken, host, port, List.append_cancel_right hcontent, hrequest, haddress⟩
  · rintro ⟨frame, host, port, rfl, hrequest, haddress⟩
    obtain ⟨time, hrun⟩ := (hrequest.takesFields haddress).takes rest script due now
    exact ⟨time, _, [], hrun, script.holding_content due rest⟩
  · refine (request_or_faulty password tail).imp_right ?_
    rintro ⟨fault, hfault⟩
    obtain ⟨left, hsettles⟩ := hfault.settles password due hend
    refine ⟨fault, hfault, hfault.message_mem, ?_⟩
    rw [Script.holding_eq_bringing]
    exact hsettles.resultOn now

/-- A request with a byte behind it, and one with the byte of another command. -/
theorem unwrap_accepts_exactly_name :
    (∃ time after log, (unwrap "key").session.run none 0
        (Script.holding {} 0 (key "key" ++ [1, 0, 80, 1, 104] ++ [7])) =
      .finished (.ok ⟨.domain "h", 80⟩) time after log ∧ after.content = [7]) ∧
    [2, 0, 80, 1, 104].length ≠ 4 ∧
      (unwrap "key").resultOn 0 (Script.holding {} 0 (key "key" ++ [2, 0, 80, 1, 104])) =
        some (.error (.malformedHeader .invalidCompactCommand)) := by
  obtain ⟨-, -, haccepts, hrefuses⟩ := unwrap_accepts_exactly "key"
  have hrequest : IsRequest "key" (key "key" ++ [1, 0, 80, 1, 104]) "h" 80 :=
    ⟨by decide, by decide, by rw [List.append_assoc]; rfl⟩
  refine ⟨(haccepts {} 0 0 _ [7] _).mpr ⟨_, "h", 80, rfl, hrequest, rfl⟩, by decide, ?_⟩
  obtain ⟨frame, rest, host, port, hbytes, -, -, rfl⟩ | ⟨fault, hfault, -, hresult⟩ :=
    hrefuses {} 0 0 [2, 0, 80, 1, 104] (.inl (by decide))
  · rw [List.append_assoc, List.append_assoc] at hbytes
    have hcommand : (2 : UInt8) = connectByte := (List.cons.inj (List.append_cancel_left hbytes)).1
    exact absurd hcommand (by decide)
  · cases hfault with
    | command => exact hresult
    | shortHead hshort => exact absurd hshort (by decide)

end SniffProxy.Compact
