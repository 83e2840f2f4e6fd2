import SniffProxy.Tls.Record
import SniffProxy.Tls.Sniff

/-!
# A reader of client hellos

An acceptor that judges everything read so far after every read. It tells its peer when it refuses a
hello, as acceptors do.
-/

namespace SniffProxy.Tls

/-- How much one read asks for. -/
def readSize : Nat := 4096

/-- How many bytes may be waiting: a whole record, or a whole message once part of one is there. -/
def bufferLimit (joining : Bool) : Nat :=
  if joining then messageLimit else recordLimit + 5

/-- Why there is no hello. -/
def noHello : String := "no client hello"

/-- The record of the alert that a message cannot be decoded. -/
def decodeAlert : Bytes := [21, 3, 3, 0, 2, 2, 50]

/-- Tells the peer that its hello is refused. -/
def refuse : Acceptor :=
  .write decodeAlert fun _ => .flush fun _ => .done (.error noHello)

/-- Reads and judges, again and again. Every read that leaves the hello incomplete adds at least one
byte, so the limit on waiting bytes bounds the number of reads. -/
def readHello : (fuel : Nat) → (joining : Bool) → (wire : Bytes) → Acceptor
  | 0, _, _ => refuse
  | fuel + 1, joining, wire =>
    if bufferLimit joining ≤ wire.length then refuse
    else
      .read (min readSize (bufferLimit joining - wire.length)) fun answer =>
        match answer with
        | .error error => .done (.error error.message)
        | .ok [] => .done (.error noHello)
        | .ok bytes =>
          match Arrival.ofWire (wire ++ bytes) with
          | .incomplete joining => readHello fuel joining (wire ++ bytes)
          | .failed => refuse
          | .hello hello => .done (.ok hello.serverName)

/-- Reads a client hello from its first byte. -/
def reader : Acceptor :=
  readHello (messageLimit + 1) false []

end SniffProxy.Tls
