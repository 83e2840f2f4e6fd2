import SniffProxy.Error
import SniffProxy.Stream.Peek

/-!
# Finding the destination of a TLS connection

The destination of a TLS connection is the server name in its client hello. The hello is read by a
library that would tell a client what it thinks of a malformed one. It works on a muted session, so
that a client cannot tell a refused hello from a silent peer.

* `Tls.Acceptor` — what reads a client hello; nothing else is assumed of it.
* `Tls.sniff` — the server name, read through a peek.
-/

namespace SniffProxy.Tls

/-- What reads a client hello: a session that answers the server name of the hello, if it has one, or
why there is no hello. It may write to its peer, and reads in whatever way it likes. -/
abbrev Acceptor := Session (Except String (Option String))

/-- The destination that an acceptor has found. An empty name is none. -/
def destination : Except String (Option String) → Except ProxyError String
  | .error cause => .error (.sniffParse (.badHello cause))
  | .ok none => .error (.sniffParse .noServerName)
  | .ok (some name) => if name = "" then .error (.sniffParse .noServerName) else .ok name

/-- Finds the server name of a TLS connection. Everything read stays recorded in the peek. -/
def sniff (acceptor : Acceptor) (peek : Peek) : Session (Except ProxyError String × Peek) :=
  (Peek.through acceptor.muted peek).bind fun (answer, peek) => .done (destination answer, peek)

end SniffProxy.Tls
