import SniffProxy.Error
import SniffProxy.Net.Ipv6

/-!
# What listeners need of an operating system

A listener is bound to the address that a text names. How a host name is looked up and which addresses
can be had is the business of the system the program runs on; the order in which it is asked, and what
is made of its answers, is the same everywhere.

* `SocketAddress.ofText?` — the address that a text such as `127.0.0.1:80` is a literal of.
* `OperatingSystem` — looking up names, binding, listening and closing.
* `OperatingSystem.listenOn` — a listening socket on the address that a text names.
-/

namespace SniffProxy

/-! ## Addresses -/

/-- The address of a socket. -/
inductive SocketAddress where
  | v4 (ip : Ipv4) (port : Port)
  | v6 (ip : Ipv6) (scope : Nat) (port : Port)
  deriving DecidableEq, Repr

namespace SocketAddress

/-- The port of an address. -/
def port : SocketAddress → Port
  | v4 _ port => port
  | v6 _ _ port => port

/-- The text of an address with something else in place of its port. -/
def withPort (address : SocketAddress) (port : String) : String :=
  match address with
  | v4 ip _ => ip.toString ++ ":" ++ port
  | v6 ip 0 _ => "[" ++ ip.toString ++ "]:" ++ port
  | v6 ip scope _ => "[" ++ ip.toString ++ "%" ++ ToString.toString scope ++ "]:" ++ port

/-- The text of an address. -/
def toString (address : SocketAddress) : String :=
  address.withPort (ToString.toString address.port.toNat)

/-- The value of a numeral of digits alone. -/
def readDigits (bound : Nat) (digits : List Char) : Option Nat :=
  if digits.all Char.isDigit then Text.readNatUpTo bound digits else none

/-- The IPv6 address between brackets, with its scope if one is named. -/
def ofBrackets? (inside : List Char) (port : Port) : Option SocketAddress :=
  match Text.cutFirst '%' inside with
  | none => (Ipv6.ofChars? inside).map fun ip => v6 ip 0 port
  | some (host, digits) =>
    match Ipv6.ofChars? host, readDigits 4294967295 digits with
    | some ip, some scope => some (v6 ip scope port)
    | _, _ => none

/-- The address that a text is a literal of. -/
def ofText? (text : String) : Option SocketAddress :=
  match Text.cutLast ':' text.toList with
  | none => none
  | some (host, digits) =>
    match readDigits 65535 digits with
    | none => none
    | some n =>
      match host with
      | '[' :: rest =>
        if rest.getLast? = some ']' then ofBrackets? rest.dropLast (UInt16.ofNat n) else none
      | _ => (Ipv4.ofChars? host).map fun ip => v4 ip (UInt16.ofNat n)

end SocketAddress

/-- Where a listener is bound. A port that the system picked is shown as such, for it is another one
every time. -/
structure BoundAddress where
  address : SocketAddress
  isPicked : Bool
  deriving DecidableEq, Repr

/-- What stands for a port that the system picked. -/
def pickedPort : String := "PORT"

/-- The text of a bound address. -/
def BoundAddress.toString (bound : BoundAddress) : String :=
  if bound.isPicked then bound.address.withPort pickedPort else bound.address.toString

/-! ## Systems -/

/-- What listeners ask of the system that the program runs on. The state `μ` says which sockets there
are, of this program and of others. -/
structure OperatingSystem (μ : Type) where
  /-- The addresses of a host, with a port. -/
  lookup : μ → (host : String) → Port → Except IoError (List SocketAddress)
  /-- Whether there can be one more socket for an address of this version. -/
  socket : μ → SocketAddress → Except IoError Unit
  /-- Gives an address to a new socket; port zero lets the system pick one. -/
  bind : μ → SocketAddress → Except IoError (BoundAddress × μ)
  /-- Has a bound socket accept connections. -/
  listen : μ → BoundAddress → Except IoError μ
  /-- Closes a socket. -/
  close : μ → BoundAddress → μ

/-- Why there is no listener. -/
inductive ListenFault where
  /-- The address makes no sense, or the system refuses a socket. -/
  | system (cause : IoError)
  | noAddress (text : String)
  | notBound (address : SocketAddress) (cause : IoError)
  deriving DecidableEq, Repr

/-- What failed, in a few words. -/
def ListenFault.summary : ListenFault → String
  | system cause => cause.message
  | noAddress text => "cannot resolve listen address " ++ text
  | notBound address _ => "listen on " ++ address.toString

/-- What failed, with its cause. -/
def ListenFault.message : ListenFault → String
  | system cause => cause.message
  | noAddress text => "cannot resolve listen address " ++ text
  | notBound address cause => withCause ("listen on " ++ address.toString) cause

namespace OperatingSystem

variable {μ : Type}

/-- The address that a text names: a literal, or the first address of a host. -/
def resolve (system : OperatingSystem μ) (state : μ) (text : String) :
    Except ListenFault SocketAddress :=
  match SocketAddress.ofText? text with
  | some address => .ok address
  | none =>
    match Text.cutLast ':' text.toList with
    | none => .error (.system .invalidSocketAddress)
    | some (host, digits) =>
      match HostPort.readPort digits with
      | none => .error (.system .invalidPort)
      | some port =>
        match system.lookup state (String.ofList host) port with
        | .error cause => .error (.system cause)
        | .ok [] => .error (.noAddress text)
        | .ok (address :: _) => .ok address

/-- A listening socket on an address, and the state afterwards. A socket that cannot listen is closed
again. -/
def listenAt (system : OperatingSystem μ) (state : μ) (address : SocketAddress) :
    Except ListenFault BoundAddress × μ :=
  match system.socket state address with
  | .error cause => (.error (.system cause), state)
  | .ok () =>
    match system.bind state address with
    | .error cause => (.error (.notBound address cause), state)
    | .ok (bound, next) =>
      match system.listen next bound with
      | .error cause => (.error (.system cause), system.close next bound)
      | .ok last => (.ok bound, last)

/-- A listening socket on the address that a text names, and the state afterwards. -/
def listenOn (system : OperatingSystem μ) (state : μ) (text : String) :
    Except ListenFault BoundAddress × μ :=
  match system.resolve state text with
  | .error fault => (.error fault, state)
  | .ok address => system.listenAt state address

end OperatingSystem

end SniffProxy
