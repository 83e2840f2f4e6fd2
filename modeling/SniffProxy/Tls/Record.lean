import SniffProxy.Tls.ClientHello

/-!
# TLS records

A client hello arrives in one or more handshake records. The scanner looks at the bytes that have
arrived so far and finds the complete hello, or proof that there is none, or neither.

* `Arrival` — the three verdicts.
* `Arrival.ofWire` — the verdict on the bytes so far.
-/

namespace SniffProxy.Tls

/-- A verdict on the bytes so far. -/
inductive Arrival where
  /-- More bytes are needed; `joining` tells whether a part of a handshake message is there. -/
  | incomplete (joining : Bool)
  | failed
  | hello (hello : ClientHello)

/-- The content type of handshake records. -/
def handshakeType : Nat := 22

/-- The content type of application data. -/
def applicationDataType : Nat := 23

/-- The known content types: change cipher spec, alert, handshake, application data, heartbeat. -/
def isContentType (n : Nat) : Bool :=
  20 ≤ n && n ≤ 24

/-- The record versions that are let through: every one of the family of TLS, SSL 2, and the three of
DTLS. -/
def isRecordVersion (high low : UInt8) : Bool :=
  high = 3 || (high = 0 && low = 2) ||
    (high = 0xfe && (low = 0xff || low = 0xfd || low = 0xfc))

/-- A record must be shorter than this. -/
def recordLimit : Nat := 16384 + 2048

/-- A handshake message must not be longer than this, its header apart. -/
def messageLimit : Nat := 65535

/-- The header of a handshake message: its type and length. -/
def messageHeader? : Bytes → Option (UInt8 × Nat)
  | kind :: a :: b :: c :: _ => some (kind, (a.toNat * 256 + b.toNat) * 256 + c.toNat)
  | _ => none

/-- The type of a client hello. -/
def clientHelloType : UInt8 := 1

/-- The verdict on the handshake bytes of the records so far: nothing while the message is
incomplete. Nothing may follow the message in its last record. -/
def judgeMessage (message : Bytes) : Option Arrival :=
  match messageHeader? message with
  | none => none
  | some (kind, length) =>
    let size := 4 + length
    if messageLimit < length then some .failed
    else if message.length < size then none
    else if size < message.length then some .failed
    else if kind = clientHelloType then
      match ClientHello.decode (message.drop 4) with
      | some hello => some (.hello hello)
      | none => some .failed
    else some .failed

/-- What the front of the wire bytes says about the next record. -/
inductive NextRecord where
  | incomplete
  | failed
  | record (contentType : Nat) (payload rest : Bytes)

/-- Looks at the next record. The parts of its header are judged as soon as they are there. -/
def nextRecord : Bytes → NextRecord
  | [] => .incomplete
  | kind :: afterKind =>
    if isContentType kind.toNat then
      match afterKind with
      | high :: low :: afterVersion =>
        if isRecordVersion high low then
          match afterVersion with
          | a :: b :: body =>
            let length := a.toNat * 256 + b.toNat
            if length = 0 ∧ kind.toNat ≠ applicationDataType then .failed
            else if recordLimit ≤ length then .failed
            else if body.length < length then .incomplete
            else .record kind.toNat (body.take length) (body.drop length)
          | _ => .incomplete
        else .failed
      | _ => .incomplete
    else .failed

/-- Joins handshake records until the message is complete. Every record takes at least its header
from the wire, so as many records as bytes are enough. -/
def join : (fuel : Nat) → (message wire : Bytes) → Arrival
  | 0, message, _ => .incomplete (!message.isEmpty)
  | fuel + 1, message, wire =>
    match nextRecord wire with
    | .incomplete => .incomplete (!message.isEmpty)
    | .failed => .failed
    | .record contentType payload rest =>
      if contentType = handshakeType then
        match judgeMessage (message ++ payload) with
        | some arrival => arrival
        | none => join fuel (message ++ payload) rest
      else .failed

/-- The verdict on the bytes so far. -/
def Arrival.ofWire (wire : Bytes) : Arrival :=
  join (wire.length + 1) [] wire

end SniffProxy.Tls
