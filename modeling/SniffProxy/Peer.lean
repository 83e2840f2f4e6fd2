import SniffProxy.Dialer
import SniffProxy.Net.Machine

/-!
# Peers

The others on the machine: each listens on a port for a single connection, on which it plays its
turns.
-/

namespace SniffProxy

/-- A partner that waits on a port. -/
structure Peer where
  port : Port
  partner : Partner
  /-- Nobody has connected yet. -/
  isFree : Bool := true
  deriving DecidableEq, Repr

instance : Wire Peer where
  run session peer :=
    match session.converse peer.partner with
    | (value, partner, log) => some (value, 0, { peer with partner }, log)

namespace Peer

/-- What a connection on a machine with these peers leads to. -/
def connect (peers : List Peer) (target : HostPort) : Except IoError Peer :=
  let free := peers.filter Peer.isFree
  match (Machine.mk (free.map Peer.port)).connect target with
  | .error cause => .error cause
  | .ok port =>
    match free.find? fun peer => peer.port = port with
    | some peer => .ok peer
    | none => .error .connectionRefused

/-- The network of these peers, who know neither TLS nor SSH. -/
def network (peers : List Peer) : Network Peer :=
  .ofTcp (connect peers)

/-- The peer after its connection, on which it heard some more bytes. -/
def conclude (peer : Peer) (bytes : Bytes) : Peer :=
  { peer with partner := (peer.partner.hear bytes).giveUp, isFree := false }

/-- The peers with one of them changed. -/
def update (peers : List Peer) (changed : Peer) : List Peer :=
  peers.map fun peer => if peer.port = changed.port then changed else peer

end Peer

end SniffProxy
