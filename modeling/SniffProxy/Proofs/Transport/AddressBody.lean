import SniffProxy.Proofs.Stream.Deciding
import SniffProxy.Proofs.Transport.Socks5

/-!
# Bodies of addresses on streams

Encoding and reading undo each other: the body of an address is read as that address and no further,
in whatever pieces it arrives, and what was read as an address is the body of it. A body that is cut
short fails with the stream. That is the early end of an exact read but in one place: the length of
a name is read as a single byte, and its absence is an unexpected end.

* `Address.Shortfall` — the failure of a stream that ends before the body does.
* `Address.readBody_short` — every body that is cut short fails so.
* `Address.readBody_undoes_body` — both directions, and the bodies that are cut short.
-/

namespace SniffProxy.Address

/-! ## Bodies that are cut short -/

/-- A stream brought only this of a body: nothing in front of the length of a name, or too few of
some bytes. -/
inductive Shortfall (address : Address) : Bytes → IoError → Prop
  | length {name : String} : address.host = .domain name → Shortfall address [] .unexpectedEof
  | bytes {front : Bytes} : (∀ name, address.host = .domain name → front ≠ []) →
      Shortfall address front .earlyEof

variable {address : Address} {front : Bytes}

/-- Too few bytes for a reader of so many. -/
theorem decode_short (decode : Bytes → Option Address) (error : ProxyError) {count : Nat}
    (h : front.length < count) :
    Session.EndsAs (Handshake.session do
      let bytes ← Handshake.readExact count
      match decode bytes with
      | some address => return address
      | none => throw error) front ⟨.error (.io .earlyEof), [], []⟩ :=
  Handshake.endsAs_bind_error (Handshake.endsAs_readExact_short h) _

/-- **A body that is cut short fails with the stream**, and all that came of it is taken. -/
theorem readBody_short (h : address.Encodable) (hfront : front <+: address.body)
    (hne : front ≠ address.body) :
    ∃ error, Shortfall address front error ∧
      (readBody address.typeByte).session.EndsAs front ⟨.error (.io error), [], []⟩ := by
  have hless : front.length < address.body.length :=
    Nat.lt_of_not_le fun hle => hne (hfront.eq_of_length_le hle)
  obtain ⟨host, port⟩ := address
  cases host with
  | ipv4 ip =>
    refine ⟨_, .bytes (by rintro _ ⟨⟩), ?_⟩
    show (readBody 1).session.EndsAs front _
    rw [readBody, if_pos rfl]
    exact decode_short ofIpv4Body _ hless
  | ipv6 ip =>
    have hbody : (body ⟨.ipv6 ip, port⟩).length = 18 := by simp [body]
    refine ⟨_, .bytes (by rintro _ ⟨⟩), ?_⟩
    show (readBody 4).session.EndsAs front _
    rw [readBody, if_neg (by decide), if_pos rfl]
    exact decode_short ofIpv6Body _ (hbody ▸ hless)
  | domain name =>
    cases front with
    | nil =>
      refine ⟨_, .length rfl, ?_⟩
      show (readBody 3).session.EndsAs [] _
      rw [readBody, if_neg (by decide), if_neg (by decide), if_pos rfl]
      exact Handshake.endsAs_bind_error Handshake.endsAs_readByte_short _
    | cons length front =>
      refine ⟨_, .bytes fun _ _ => List.cons_ne_nil _ _, ?_⟩
      obtain ⟨rfl, -⟩ := List.cons_prefix_cons.mp hfront
      have hbody : (body ⟨.domain name, port⟩).length = (utf8 name).length + 3 := by simp [body]
      rw [hbody, List.length_cons, ← toNat_length (h name rfl)] at hless
      have hname := decode_short (ofDomainBody (UInt8.ofNat (utf8 name).length).toNat)
        (.malformedHeader .invalidDomainEncoding) (Nat.lt_of_succ_lt_succ hless)
      show (readBody 3).session.EndsAs _ _
      rw [readBody, if_neg (by decide), if_neg (by decide), if_pos rfl]
      exact Handshake.endsAs_bind_fails (Handshake.endsWithin_readByte _ front).endsAs hname

/-! ## Both directions -/

/-- A body with anything behind it is read to its end, and what is behind is left. -/
theorem readBody_body (h : address.Encodable) {script : Script} (hscript : script.Obliging)
    {rest : Bytes} (hcontent : script.content = address.body ++ rest) (now : Nat) :
    ∃ time after log, (readBody address.typeByte).session.run none now script =
      .finished (.ok address) time after log ∧ after.content = rest := by
  rw [← Act.taken_takes address.body] at hcontent
  obtain ⟨time, after, log, hrun, hrest, -⟩ := (readBody_follows h).run now hscript hcontent
  exact ⟨time, after, log, hrun, hrest⟩

/-- **Reading a body undoes encoding it, and encoding undoes reading.** A body is read as its
address, in whatever pieces it arrives, and nothing behind it is taken. On every stream at all, what
was read as an address is the body of it, and the type byte is its own. Every first part of a body
at the end of a stream is an early end, but for the empty one of a name, which is an unexpected one.
A wire form is only appended to a buffer, and the number of its bytes is told. -/
theorem readBody_undoes_body :
    (∀ address : Address, address.Encodable → ∀ (script : Script) (now : Nat) (rest : Bytes),
      script.Obliging → script.content = address.body ++ rest →
      ∃ time after log, (readBody address.typeByte).session.run none now script =
        .finished (.ok address) time after log ∧ after.content = rest) ∧
    (∀ (typeByte : UInt8) (address : Address) (deadline : Option Nat) (now time : Nat)
      (script after : Script) (log : List LogEvent),
      (readBody typeByte).session.run deadline now script =
        .finished (.ok address) time after log →
      typeByte = address.typeByte ∧ address.Encodable ∧
        script.content = address.body ++ after.content) ∧
    (∀ address : Address, address.Encodable → ∀ front, front <+: address.body →
      front ≠ address.body →
      ((∀ name, address.host = .domain name → front ≠ []) →
        (readBody address.typeByte).session.EndsAs front ⟨.error (.io .earlyEof), [], []⟩) ∧
      (∀ name, address.host = .domain name → front = [] →
        (readBody address.typeByte).session.EndsAs front
          ⟨.error (.io .unexpectedEof), [], []⟩)) ∧
    (∀ (address : Address) (buffer : Bytes), address.appendTo buffer =
      (buffer ++ address.typeByte :: address.body, 1 + address.body.length)) ∧
    IoError.earlyEof.message = "early eof" ∧
    IoError.unexpectedEof.message = "unexpected end of file" := by
  refine ⟨fun address h script now rest hscript hcontent => readBody_body h hscript hcontent now,
    fun typeByte address deadline now time script after log hrun => ?_,
    fun address h front hfront hne => ?_, fun address buffer => ?_, rfl, rfl⟩
  · obtain ⟨taken, _, hcontent, -, -, hencodable, htype, hbody⟩ := readBody_ensures typeByte hrun
    exact ⟨htype.symm, hencodable, hbody ▸ hcontent⟩
  · obtain ⟨error, hshortfall, hends⟩ := readBody_short h hfront hne
    cases hshortfall with
    | length hname => exact ⟨fun hsome => absurd rfl (hsome _ hname), fun _ _ _ => hends⟩
    | bytes hsome => exact ⟨fun _ => hends, fun name hname hnil => absurd hnil (hsome name hname)⟩
  · rw [appendTo_eq, encode, List.length_cons, Nat.add_comm]

/-- A name in two pieces with a byte behind it, and its body cut behind and in front of its length.
-/
theorem readBody_undoes_body_name :
    let name : Address := ⟨.domain "h", 80⟩
    let pieces : Script := { events := [⟨0, .data [1, 104]⟩, ⟨5, .data [0, 80, 7]⟩] }
    (∃ time after log, (readBody 3).session.run none 0 pieces =
        .finished (.ok name) time after log ∧ after.content = [7] ∧
      3 = name.typeByte ∧ pieces.content = name.body ++ after.content) ∧
    (readBody 3).session.EndsAs [1] ⟨.error (.io .earlyEof), [], []⟩ ∧
    (readBody 3).session.EndsAs [] ⟨.error (.io .unexpectedEof), [], []⟩ ∧
    name.appendTo [0xee] = ([0xee, 3, 1, 104, 0, 80], 5) := by
  intro name pieces
  obtain ⟨hreads, hencodes, hshort, happends, -⟩ := readBody_undoes_body
  have hname : name.Encodable := by
    rintro _ ⟨⟩
    decide
  have hpieces : pieces.Obliging :=
    ⟨List.forall_mem_cons.mpr ⟨nofun, List.forall_mem_cons.mpr ⟨nofun, nofun⟩⟩, nofun, rfl, rfl,
      rfl⟩
  obtain ⟨time, after, log, hrun, hrest⟩ := hreads name hname pieces 0 [7] hpieces (by decide)
  obtain ⟨htype, -, hcontent⟩ := hencodes 3 name none 0 time pieces after log hrun
  refine ⟨⟨time, after, log, hrun, hrest, htype, hcontent⟩, ?_, ?_,
    (happends name [0xee]).trans (by decide)⟩
  · exact (hshort name hname [1] (by decide) (by decide)).1 fun _ _ => by decide
  · exact (hshort name hname [] (by decide) (by decide)).2 "h" rfl rfl

/-- Not every body that is cut short is an early end: in front of the length of a name it is an
unexpected one. -/
theorem readBody_short_not_earlyEof :
    ¬ ∀ address : Address, address.Encodable → ∀ front, front <+: address.body →
      front ≠ address.body →
      ∀ ending, (readBody address.typeByte).session.EndsAs front ending →
        ending.result = .error (.io .earlyEof) := by
  intro hall
  have hname : Encodable ⟨.domain "h", 80⟩ := by
    rintro _ ⟨⟩
    decide
  have hfront : [] <+: body ⟨.domain "h", 80⟩ := List.nil_prefix
  have hne : [] ≠ body ⟨.domain "h", 80⟩ := by decide
  obtain ⟨error, hshortfall, hends⟩ := readBody_short hname hfront hne
  cases hshortfall with
  | length _ => cases hall _ hname _ hfront hne _ hends
  | bytes hsome => exact hsome "h" rfl rfl

end SniffProxy.Address
