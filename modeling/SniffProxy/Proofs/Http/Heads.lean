import SniffProxy.Proofs.Http.FieldValue
import SniffProxy.Proofs.Http.Sniffing

/-!
# Well-formed heads

A request head as a client writes it: empty lines, a request line, header lines with anything after
the colon that may stand there, and the empty line. The scanner reads back what was written, so the
sniffer finds the first `Host` line wherever it stands.

* `LineEnd`, `HeaderLine`, `RequestHead` — what a client may write, with its bytes.
* `RequestHead.scan_toBytes` — the scanner finds the head and leaves what stands behind it.
* `RequestHead.host?` — the text of the first `Host` line.
* `sniff_finds_host` — the destination of a connection that begins with such a head.
-/

namespace SniffProxy.Http

/-! ## What a client writes -/

/-- The end of a line. -/
inductive LineEnd where
  | crlf
  | lf
  deriving DecidableEq, Repr

/-- The bytes at the end of a line. -/
def LineEnd.toBytes : LineEnd → Bytes
  | crlf => [cr, Http.lf]
  | lf => [Http.lf]

/-- A header line: a name, and any text behind the colon. -/
structure HeaderLine where
  name : Bytes
  text : Bytes
  ending : LineEnd
  name_ne_nil : name ≠ []
  name_bytes : ∀ b ∈ name, isTokenByte b = true
  text_bytes : ∀ b ∈ text, isValueByte b = true

/-- The bytes of a header line. -/
def HeaderLine.toBytes (line : HeaderLine) : Bytes :=
  line.name ++ colon :: (line.text ++ line.ending.toBytes)

/-- What the scanner makes of a header line. -/
def HeaderLine.header (line : HeaderLine) : Header :=
  ⟨line.name, stripBlanks line.text⟩

/-- A request head with the empty lines in front of it. -/
structure RequestHead where
  emptyLines : List LineEnd
  method : Bytes
  target : Bytes
  minorVersion : UInt8
  requestEnd : LineEnd
  lines : List HeaderLine
  ending : LineEnd
  method_ne_nil : method ≠ []
  method_bytes : ∀ b ∈ method, isTokenByte b = true
  target_ne_nil : target ≠ []
  target_bytes : ∀ b ∈ target, isTargetByte b = true
  target_text : (decodeUtf8 target).isSome = true
  version : minorVersion = 0 ∨ minorVersion = 1
  lines_length : lines.length ≤ maxHeaders

namespace RequestHead

/-- The bytes of a request line. -/
def requestLine (head : RequestHead) : Bytes :=
  head.method ++ space :: (head.target ++ space ::
    (versionStem ++ (0x30 + head.minorVersion) :: head.requestEnd.toBytes))

/-- The bytes of the header lines and the empty line behind them. -/
def headerBytes (lines : List HeaderLine) (ending : LineEnd) : Bytes :=
  lines.flatMap HeaderLine.toBytes ++ ending.toBytes

/-- The bytes of a request head. -/
def toBytes (head : RequestHead) : Bytes :=
  head.emptyLines.flatMap LineEnd.toBytes ++
    (head.requestLine ++ headerBytes head.lines head.ending)

/-- What the scanner makes of a head. -/
def parsed (head : RequestHead) : Head :=
  ⟨head.method, head.target, head.minorVersion, head.lines.map HeaderLine.header⟩

end RequestHead

/-! ## The ends of lines -/

variable {b : UInt8}

theorem LineEnd.toBytes_eq_cons (ending : LineEnd) :
    ∃ b rest, ending.toBytes = b :: rest ∧ (b = cr ∨ b = Http.lf) := by
  cases ending with
  | crlf => exact ⟨cr, _, rfl, .inl rfl⟩
  | lf => exact ⟨Http.lf, _, rfl, .inr rfl⟩

/-- The end of a line is read back. -/
theorem scanLineEnd_toBytes (fault : HeadFault) (ending : LineEnd) (rest : Bytes) :
    scanLineEnd fault (ending.toBytes ++ rest) = .found () rest := by
  cases ending <;> rfl

theorem not_isValueByte_of_lineEnd (h : b = cr ∨ b = lf) : isValueByte b = false := by
  rcases h with rfl | rfl <;> decide

theorem not_isLineBlank_of_lineEnd (h : b = cr ∨ b = lf) : isLineBlank b = false := by
  rcases h with rfl | rfl <;> decide

/-- A token does not begin like the end of a line. -/
theorem not_lineEnd_of_isTokenByte (h : isTokenByte b = true) : ¬ (b = cr ∨ b = lf) := by
  rintro (rfl | rfl)
  · exact absurd h (by decide)
  · exact absurd h (by decide)

/-- Empty lines are skipped up to a line that is none. -/
theorem skipEmptyLines_toBytes (hb : ¬ (b = cr ∨ b = lf)) (rest : Bytes) :
    ∀ emptyLines : List LineEnd,
      skipEmptyLines (emptyLines.flatMap LineEnd.toBytes ++ b :: rest) = .found () (b :: rest) := by
  obtain ⟨hcr, hlf⟩ := not_or.mp hb
  intro emptyLines
  induction emptyLines with
  | nil => exact skipEmptyLines_of_ne hcr hlf rest
  | cons ending emptyLines ih =>
    rw [List.flatMap_cons, List.append_assoc]
    generalize hmore : emptyLines.flatMap LineEnd.toBytes ++ b :: rest = more at ih
    cases ending with
    | crlf => exact ih
    | lf =>
      cases more with
      | nil => simp at hmore
      | cons c more => exact ih

/-! ## Words -/

/-- The bytes of one class before a byte of another class. -/
theorem span_of_stop {p : UInt8 → Bool} {word : Bytes} {stop : UInt8}
    (hword : ∀ b ∈ word, p b = true) (hstop : p stop = false) (rest : Bytes) :
    (word ++ stop :: rest).takeWhile p = word ∧
      (word ++ stop :: rest).dropWhile p = stop :: rest := by
  rw [List.takeWhile_append_of_pos hword, List.dropWhile_append_of_pos hword]
  simp [hstop]

/-- A word is read back up to the byte that ends it. -/
theorem scanWordEnd_of_stop {p : UInt8 → Bool} {ok : Bytes → UInt8 → Prop}
    [∀ word b, Decidable (ok word b)] {word : Bytes} {stop : UInt8} (fault : HeadFault)
    (hword : ∀ b ∈ word, p b = true) (hstop : p stop = false) (hok : ok word stop) (rest : Bytes) :
    scanWordEnd ok fault ((word ++ stop :: rest).takeWhile p) ((word ++ stop :: rest).dropWhile p) =
      .found word rest := by
  obtain ⟨htake, hdrop⟩ := span_of_stop hword hstop rest
  rw [htake, hdrop, scanWordEnd, if_pos hok]

theorem scanMethod_of_stop {method : Bytes} (hne : method ≠ [])
    (hbytes : ∀ b ∈ method, isTokenByte b = true) (rest : Bytes) :
    scanMethod (method ++ space :: rest) = .found method rest := by
  rw [scanMethod_eq]
  exact scanWordEnd_of_stop .token hbytes (by decide) ⟨rfl, hne⟩ rest

theorem scanTarget_of_stop {target : Bytes} (hne : target ≠ [])
    (hbytes : ∀ b ∈ target, isTargetByte b = true) (htext : (decodeUtf8 target).isSome = true)
    (rest : Bytes) : scanTarget (target ++ space :: rest) = .found target rest := by
  rw [scanTarget_eq]
  exact scanWordEnd_of_stop .token hbytes (by decide) ⟨rfl, hne, htext⟩ rest

theorem scanName_of_stop {name : Bytes} (hne : name ≠ [])
    (hbytes : ∀ b ∈ name, isTokenByte b = true) (rest : Bytes) :
    scanName (name ++ colon :: rest) = .found name rest := by
  rw [scanName_eq]
  exact scanWordEnd_of_stop .headerName hbytes (by decide) ⟨rfl, hne⟩ rest

/-- A version is read back. -/
theorem scanVersion_of_digit {minorVersion : UInt8} (h : minorVersion = 0 ∨ minorVersion = 1)
    (rest : Bytes) :
    scanVersion (versionStem ++ (0x30 + minorVersion) :: rest) = .found minorVersion rest := by
  rcases h with rfl | rfl <;> rfl

/-! ## Header lines -/

/-- A header value is read back without the blanks around it. -/
theorem scanValue_of_lineEnd {text : Bytes} (hbytes : ∀ b ∈ text, isValueByte b = true)
    (ending : LineEnd) (rest : Bytes) :
    scanValue (text ++ (ending.toBytes ++ rest)) = .found (stripBlanks text) rest := by
  obtain ⟨b, more, hending, hb⟩ := ending.toBytes_eq_cons
  have hfront : (text ++ (ending.toBytes ++ rest)).dropWhile isLineBlank =
      text.dropWhile isLineBlank ++ (ending.toBytes ++ rest) := by
    rw [List.dropWhile_append]
    split
    · rename_i hnothing
      rw [List.isEmpty_iff.mp hnothing, hending, List.cons_append, List.dropWhile_cons_of_neg,
        List.nil_append]
      simp [not_isLineBlank_of_lineEnd hb]
    · rfl
  have hcore : ∀ c ∈ text.dropWhile isLineBlank, isValueByte c = true :=
    fun c hc => hbytes c ((List.dropWhile_sublist _).mem hc)
  obtain ⟨htake, hdrop⟩ := span_of_stop hcore (not_isValueByte_of_lineEnd hb) (more ++ rest)
  rw [← List.cons_append, ← hending] at htake hdrop
  simp only [scanValue, hfront, htake, hdrop, scanLineEnd_toBytes, Scan.andThen]
  rfl

/-- Header lines are read back, as many as there is room for. -/
theorem scanHeaders_headerBytes (ending : LineEnd) (rest : Bytes) :
    ∀ {room : Nat} (lines : List HeaderLine), lines.length ≤ room →
      scanHeaders room (RequestHead.headerBytes lines ending ++ rest) =
        .found (lines.map HeaderLine.header) rest := by
  intro room lines
  induction lines generalizing room with
  | nil =>
    intro _
    have hend := scanLineEnd_toBytes .newLine ending rest
    obtain ⟨b, more, hending, hb⟩ := ending.toBytes_eq_cons
    rw [RequestHead.headerBytes, List.flatMap_nil, List.nil_append]
    rw [hending, List.cons_append] at hend ⊢
    cases room with
    | zero =>
      rw [scanHeaders, if_pos hb, hend]
      rfl
    | succ room =>
      rw [scanHeaders, if_pos hb, hend]
      rfl
  | cons line lines ih =>
    intro hlength
    cases room with
    | zero => cases hlength
    | succ room =>
      have hrest := ih (Nat.le_of_succ_le_succ hlength)
      have hbytes : RequestHead.headerBytes (line :: lines) ending ++ rest =
          line.name ++ colon :: (line.text ++
            (line.ending.toBytes ++ (RequestHead.headerBytes lines ending ++ rest))) := by
        simp [RequestHead.headerBytes, HeaderLine.toBytes]
      have hname := scanName_of_stop line.name_ne_nil line.name_bytes (line.text ++
        (line.ending.toBytes ++ (RequestHead.headerBytes lines ending ++ rest)))
      have hvalue := scanValue_of_lineEnd line.text_bytes line.ending
        (RequestHead.headerBytes lines ending ++ rest)
      obtain ⟨b, more, hcons⟩ := List.exists_cons_of_ne_nil line.name_ne_nil
      have hb : isTokenByte b = true := line.name_bytes b (hcons ▸ List.mem_cons_self)
      rw [hbytes]
      rw [hcons, List.cons_append] at hname ⊢
      rw [scanHeaders, if_neg (not_lineEnd_of_isTokenByte hb), hname]
      simp only [Scan.andThen, hvalue, hrest, ← hcons]
      rfl

/-! ## Heads -/

namespace RequestHead

/-- **A head is read back**, and nothing of what stands behind it. -/
theorem scan_toBytes (head : RequestHead) (body : Bytes) :
    Head.scan (head.toBytes ++ body) = .found head.parsed body := by
  let headers := headerBytes head.lines head.ending ++ body
  let request := head.method ++ space :: (head.target ++ space ::
    (versionStem ++ (0x30 + head.minorVersion) :: (head.requestEnd.toBytes ++ headers)))
  have hbytes : head.toBytes ++ body = head.emptyLines.flatMap LineEnd.toBytes ++ request := by
    simp [toBytes, requestLine, request, headers]
  have hskip : skipEmptyLines (head.toBytes ++ body) = .found () request := by
    obtain ⟨b, more, hcons⟩ := List.exists_cons_of_ne_nil head.method_ne_nil
    have hb : isTokenByte b = true := head.method_bytes b (hcons ▸ List.mem_cons_self)
    have hrequest : ∃ rest, request = b :: rest := ⟨_, by simp only [request, hcons]; rfl⟩
    obtain ⟨rest, hrequest⟩ := hrequest
    rw [hbytes, hrequest, skipEmptyLines_toBytes (not_lineEnd_of_isTokenByte hb)]
  have hmethod : scanMethod request = .found head.method _ :=
    scanMethod_of_stop head.method_ne_nil head.method_bytes _
  simp only [Head.scan, hskip, hmethod, Scan.andThen,
    scanTarget_of_stop head.target_ne_nil head.target_bytes head.target_text,
    scanVersion_of_digit head.version, scanLineEnd_toBytes, headers,
    scanHeaders_headerBytes head.ending body head.lines head.lines_length]
  rfl

/-- The text of the first `Host` line without white space at both ends, if there is such a line and
its text is readable and not blank. -/
def host? (head : RequestHead) : Option String :=
  match head.lines.find? fun line => sameName line.name (utf8 "host") with
  | none => none
  | some line =>
    match trimmedText line.text with
    | none | some [] => none
    | some text => some (String.ofList text)

/-- The sniffer looks at this text. -/
theorem hostText?_parsed (head : RequestHead) : head.parsed.hostText? = head.host? := by
  have hvalue : head.parsed.value? (utf8 "host") =
      (head.lines.find? fun line => sameName line.name (utf8 "host")).map
        fun line => stripBlanks line.text := by
    simp only [Head.value?, parsed, List.find?_map, Option.map_map]
    rfl
  rw [Head.hostText?, hvalue, host?]
  cases head.lines.find? fun line => sameName line.name (utf8 "host") with
  | none => rfl
  | some line =>
    have htext := trimmedText_stripBlanks line.text
    dsimp only [Option.map_some, Option.bind_some]
    rw [← htext, trimmedText]
    cases decodeUtf8 (stripBlanks line.text) with
    | none => rfl
    | some text =>
      dsimp only [Option.map_some]
      cases Text.trim text.toList <;> rfl

end RequestHead

/-! ## Destinations -/

/-- **Sniffing finds the host of every well-formed head.** A connection that begins with a head that
is not too large, cut into reads in any way, is for what its first `Host` line says: the port behind
the host is 80 unless the line names one. Without such a text, or without a host in it, there is no
destination. Nothing else in the head and nothing behind it plays a part. -/
theorem sniff_finds_host (head : RequestHead) (body : Bytes) (hsize : head.toBytes.length ≤ 16384)
    (script : Script) (hreads : Script.NoFailure script.events)
    (hcontent : script.content = head.toBytes ++ body) :
    (head.host? = none →
      ∃ result, FailsWith "missing Host header" result ∧ Answers script result) ∧
    ∀ text, head.host? = some text →
      (∀ target, HostPort.split text 80 = some target → target.host ≠ "" →
        Answers script (.ok target)) ∧
      ((∀ target, HostPort.split text 80 = some target → target.host = "") →
        ∃ result, FailsWith ("invalid Host header: " ++ text) result ∧ Answers script result) := by
  have hanswers : Answers script head.parsed.destination := by
    have hjudge : judge head.toBytes = some head.parsed.destination := by
      have hscan := head.scan_toBytes []
      rw [List.append_nil] at hscan
      rw [judge, hscan]
    refine answers_of_judge hreads ?_ hsize hjudge
    rw [hcontent]
    exact List.prefix_append head.toBytes body
  rw [Head.destination, head.hostText?_parsed] at hanswers
  refine ⟨fun hnone => ?_, fun text htext => ⟨fun target hsplit hhost => ?_, fun hinvalid => ?_⟩⟩
  · rw [hnone] at hanswers
    exact ⟨_, ⟨_, rfl, rfl⟩, hanswers⟩
  · have hsplit' : HostPort.split text defaultPort = some target := hsplit
    rw [htext] at hanswers
    simp only [hsplit', if_neg hhost] at hanswers
    exact hanswers
  · rw [htext] at hanswers
    refine ⟨_, ⟨.invalidHost text, rfl, rfl⟩, ?_⟩
    cases hsplit : HostPort.split text defaultPort with
    | none =>
      simp only [hsplit] at hanswers
      exact hanswers
    | some target =>
      simp only [hsplit, if_pos (hinvalid target hsplit)] at hanswers
      exact hanswers

/-- A head with mixed line ends, whose target, one of whose values and whose body all read like a
`Host` line, on a stream that brings it in three pieces and then stays silent. -/
theorem sniff_finds_host_between :
    Answers
      { events := [⟨0, .data (utf8 "\r\n\nGET /Host:a HT")⟩,
          ⟨3, .data (utf8 "TP/1.1\nAccept: Host: b\r\nhOSt:\t c")⟩,
          ⟨5, .data (utf8 ".example:8080 \nHost: d\r\n\r\nHost: e\r\n\r\n")⟩],
        afterwards := .silent }
      (.ok ⟨"c.example", 8080⟩) := by
  let head : RequestHead :=
    { emptyLines := [.crlf, .lf]
      method := utf8 "GET"
      target := utf8 "/Host:a"
      minorVersion := 1
      requestEnd := .lf
      lines := [
        ⟨utf8 "Accept", utf8 " Host: b", .crlf, by decide, List.all_eq_true.mp rfl,
          List.all_eq_true.mp rfl⟩,
        ⟨utf8 "hOSt", utf8 "\t c.example:8080 ", .lf, by decide, List.all_eq_true.mp rfl,
          List.all_eq_true.mp rfl⟩,
        ⟨utf8 "Host", utf8 " d", .crlf, by decide, List.all_eq_true.mp rfl,
          List.all_eq_true.mp rfl⟩]
      ending := .crlf
      method_ne_nil := by decide
      method_bytes := List.all_eq_true.mp rfl
      target_ne_nil := by decide
      target_bytes := List.all_eq_true.mp rfl
      target_text := by decide
      version := .inr rfl
      lines_length := by decide }
  have hhost : head.host? = some "c.example:8080" := by
    decide +kernel
  have hsize : head.toBytes.length ≤ 16384 := by decide
  have hsplit : HostPort.split "c.example:8080" 80 = some ⟨"c.example", 8080⟩ := by decide
  refine ((sniff_finds_host head (utf8 "Host: e\r\n\r\n") hsize _ ?_ rfl).2 _ hhost).1
    ⟨"c.example", 8080⟩ hsplit (by decide)
  intro event hevent error
  simp only [List.mem_cons, List.not_mem_nil, or_false] at hevent
  rcases hevent with rfl | rfl | rfl <;> exact nofun

end SniffProxy.Http
