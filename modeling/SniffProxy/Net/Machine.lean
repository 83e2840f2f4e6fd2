import SniffProxy.Net.System

/-!
# A machine without a network

Listeners are bound and connections opened on a machine that speaks TCP over IPv4 and reaches
nothing but itself: the loopback network `127.0.0.0/8`, under the single host name `localhost`. A
port is taken by at most one listener, whatever the address it was bound to.

* `Machine.system` — the system of such a machine.
* `Machine.connect` — the listening port that a connection arrives at.
-/

namespace SniffProxy

/-- The machine: the ports that listeners have taken. -/
structure Machine where
  taken : List Port
  deriving DecidableEq, Repr

namespace Machine

/-! ## Names -/

/-- The address that `localhost` stands for. -/
def localhost : Ipv4 := ⟨127, 0, 0, 1⟩

/-- The address of a host, with a port. -/
def resolve (host : String) (port : Port) : Except IoError SocketAddress :=
  match Ipv4.ofChars? host.toList, Ipv6.ofChars? host.toList with
  | some ip, _ => .ok (.v4 ip port)
  | none, some ip => .ok (.v6 ip 0 port)
  | none, none =>
    if Char.ofNat 0 ∈ host.toList then .error .fileNameHasNul
    else if Text.asciiLower host.toList = "localhost".toList then .ok (.v4 localhost port)
    else .error .unknownHostName

/-! ## Listening -/

/-- Whether a listener can have an address of the machine. -/
def isOwn (ip : Ipv4) : Bool :=
  ip.isLoopback || ip = .any

/-- The first port from 32768 on that is free. -/
def freePort (machine : Machine) : Option Port :=
  ((List.range 32768).map fun n => UInt16.ofNat (32768 + n)).find? fun port =>
    port ∉ machine.taken

/-- Takes a port for a listener. -/
def bind (machine : Machine) : SocketAddress → Except IoError (BoundAddress × Machine)
  | .v6 _ _ _ => .error .addressNotAvailable
  | .v4 ip port =>
    if isOwn ip = false then .error .addressNotAvailable
    else if port = 0 then
      match machine.freePort with
      | none => .error .addressInUse
      | some port => .ok (⟨.v4 ip port, true⟩, ⟨port :: machine.taken⟩)
    else if port ∈ machine.taken then .error .addressInUse
    else .ok (⟨.v4 ip port, false⟩, ⟨port :: machine.taken⟩)

/-- The system of the machine. -/
def system : OperatingSystem Machine where
  lookup _ host port := (resolve host port).map fun address => [address]
  socket _ _ := .ok ()
  bind := bind
  listen machine _ := .ok machine
  close machine bound := ⟨machine.taken.erase bound.address.port⟩

/-! ## Connecting -/

/-- Where a connection to a host and port arrives. -/
def connect (machine : Machine) (target : HostPort) : Except IoError Port :=
  match resolve target.host target.port with
  | .error cause => .error cause
  | .ok (.v6 _ _ _) => .error .networkUnreachable
  | .ok (.v4 ip port) =>
    if ip.isLoopback = false then .error .networkUnreachable
    else if port ∈ machine.taken then .ok port
    else .error .connectionRefused

end Machine

end SniffProxy
