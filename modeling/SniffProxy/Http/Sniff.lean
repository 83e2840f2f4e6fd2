import SniffProxy.Http.Head
import SniffProxy.Stream.Peek

/-!
# Finding the destination of an HTTP request

The destination of a plain HTTP connection is what its first request names in the `Host` header. The
sniffer reads through a peek and scans everything read so far after every read, so that the answer
depends on the bytes and not on how they are cut.

* `Head.destination` — the destination that a head names.
* `sniff` — reads until the head is decided or too large.
-/

namespace SniffProxy.Http

/-- The port of a `Host` header that names none. -/
def defaultPort : Port := 80

/-- How much of a head is read before giving up. -/
def maxHeadSize : Nat := 16384

/-- How much one read asks for. -/
def readSize : Nat := 2048

/-- The text of the `Host` header without surrounding white space, unless it is blank. -/
def Head.hostText? (head : Head) : Option String :=
  match (head.value? (utf8 "host")).bind decodeUtf8 with
  | none => none
  | some text =>
    let trimmed := Text.trim text.toList
    if trimmed = [] then none else some (String.ofList trimmed)

/-- The destination that a head names. -/
def Head.destination (head : Head) : Except ProxyError HostPort :=
  match head.hostText? with
  | none => .error (.sniffParse .missingHost)
  | some text =>
    match HostPort.split text defaultPort with
    | some target =>
      if target.host = "" then .error (.sniffParse (.invalidHost text)) else .ok target
    | none => .error (.sniffParse (.invalidHost text))

/-- What the bytes so far say about the destination; nothing while the head is incomplete. -/
def judge (bytes : Bytes) : Option (Except ProxyError HostPort) :=
  match Head.scan bytes with
  | .incomplete => none
  | .faulty fault => some (.error (.sniffParse (.badHead fault)))
  | .found head _ => some head.destination

/-- Reads and judges, again and again. Every read that leaves the head undecided adds at least one
byte, so the largest head bounds the number of reads. -/
def sniffMore : (fuel : Nat) → Peek → Session (Except ProxyError HostPort × Peek)
  | 0, peek => .done (.error (.sniffParse .headTooLarge), peek)
  | fuel + 1, peek =>
    (peek.read readSize).bind fun (answer, peek) =>
      match answer with
      | .error error => .done (.error (.io error), peek)
      | .ok [] => .done (.error (.sniffParse .closedBeforeHead), peek)
      | .ok (_ :: _) =>
        match judge peek.buffer with
        | some verdict => .done (verdict, peek)
        | none =>
          if maxHeadSize ≤ peek.buffer.length then
            .done (.error (.sniffParse .headTooLarge), peek)
          else sniffMore fuel peek

/-- Finds the destination of an HTTP connection. Everything read stays recorded in the peek. -/
def sniff (peek : Peek) : Session (Except ProxyError HostPort × Peek) :=
  sniffMore maxHeadSize peek

end SniffProxy.Http
