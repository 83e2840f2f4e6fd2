import SniffProxy.Net.HostPort
import SniffProxy.Stream.Live

/-!
# Responders

What stands behind a listener that is tried out without dialing anywhere: a responder tells a routed
connection its destination and gives its bytes back.
-/

namespace SniffProxy

/-- How a routed connection is answered. -/
inductive Responder where
  /-- The destination at once, then every byte as it comes. -/
  | echo
  /-- The destination and all bytes once the last one has come. -/
  | recite
  deriving DecidableEq, Repr

namespace Responder

/-- The line that names a destination. -/
def greeting (target : HostPort) : Bytes :=
  utf8 (HostPort.join target.host target.port ++ "\n")

/-- The stream once a connection to a destination has been routed. -/
def start (responder : Responder) (target : HostPort) (live : Live) : Live :=
  match responder with
  | echo => live.push (greeting target)
  | recite => live

/-- The stream after everything that can be answered is answered. -/
def answer (responder : Responder) (target : HostPort) (live : Live) : Live :=
  match responder with
  | echo => { live.push live.inbox with inbox := [] }
  | recite =>
    if live.ended then { live.push (greeting target ++ live.inbox) with inbox := [] } else live

end Responder

end SniffProxy
