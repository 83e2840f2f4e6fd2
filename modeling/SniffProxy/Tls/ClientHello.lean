import SniffProxy.Net.DnsName
import SniffProxy.Tls.Decoder

/-!
# Client hellos

The first message of a TLS client, and what has to be right about it before its server name is
believed: every vector complete, every known extension well formed and given once, a pre-shared key
last, null compression offered, signature algorithms present, and at most one server name.

* `ClientHello.decode` — the message without its handshake header.
* `ClientHello.serverName` — the name it asks for; IP addresses do not count.
-/

namespace SniffProxy.Tls

open Decoder

/-- An extension with its undecoded body. -/
structure Extension where
  kind : Nat
  body : Bytes
  deriving DecidableEq, Repr

/-- A client hello. -/
structure ClientHello where
  version : Nat
  random : Bytes
  sessionId : Bytes
  cipherSuites : List Nat
  compressions : List Nat
  extensions : List Extension
  deriving DecidableEq, Repr

/-! ## Server names -/

/-- What a server name extension holds. -/
inductive ServerName where
  | dns (name : String)
  | ip
  | invalid
  deriving DecidableEq, Repr

/-- The meaning of the bytes of a host name. -/
def ServerName.ofHostName (bytes : Bytes) : ServerName :=
  match (decodeUtf8 bytes).bind PeerName.ofString? with
  | some (.dns name) => .dns name
  | some (.ip _) => .ip
  | none => .invalid

/-- Reads one entry of a server name list: a host name, or something of unknown length that takes
all the rest. -/
def serverNameEntry : Decoder (Option ServerName) := do
  let kind ← u8
  if kind = 0 then
    return some (ServerName.ofHostName (← nonEmpty16))
  else
    let _ ← rest
    return none

/-- Reads a server name extension: a list with exactly one host name; without any it is invalid. -/
def serverNameList : Decoder ServerName := do
  let entries ← each serverNameEntry nonEmpty16
  match entries.filterMap id with
  | [] => return .invalid
  | [name] => return name
  | _ => failure

/-! ## Extensions -/

/-- Numbers of two bytes in a non-empty vector with a length of two bytes. -/
def numbers16 : Decoder Unit := do
  let _ ← each u16 nonEmpty16

/-- Reads a request for the status of the server's certificate. -/
def statusRequest : Decoder Unit := do
  let kind ← u8
  if kind = 1 then
    let _ ← each vector16 vector16
    let _ ← vector16
  else
    let _ ← rest

/-- Reads an offer of pre-shared keys: identities with their ages, then binders. -/
def preSharedKeys : Decoder Unit := do
  let identity : Decoder Nat := do
    let _ ← nonEmpty16
    u32
  let _ ← each identity nonEmpty16
  let _ ← each nonEmpty8 nonEmpty16

/-- Reads key shares: groups with their keys. -/
def keyShares : Decoder Unit := do
  let share : Decoder Bytes := do
    let _ ← u16
    nonEmpty16
  let _ ← each share vector16

/-- Reads an encrypted client hello: an outer one with its cipher suite, configuration and payload,
or an inner one, which is only a mark. -/
def encryptedHello : Decoder Unit := do
  let kind ← u8
  if kind = 0 then
    let _ ← u16
    let _ ← u16
    let _ ← u8
    let _ ← vector16
    let _ ← nonEmpty16
  else require (kind = 1)

/-- How the body of a known extension is read. -/
def bodyOf : (kind : Nat) → Option (Decoder Unit)
  | 0x0000 => some do let _ ← serverNameList
  | 0x0005 => some statusRequest
  | 0x000a => some numbers16
  | 0x000b => some do let _ ← nonEmpty8
  | 0x000d => some numbers16
  | 0x0010 => some do let _ ← each nonEmpty8 nonEmpty16
  | 0x0013 => some do let _ ← nonEmpty8
  | 0x0014 => some do let _ ← nonEmpty8
  | 0x0017 => some (pure ())
  | 0x001b => some do let _ ← each u16 nonEmpty8
  | 0x0023 => some do let _ ← rest
  | 0x0029 => some preSharedKeys
  | 0x002a => some (pure ())
  | 0x002b => some do let _ ← each u16 nonEmpty8
  | 0x002c => some do let _ ← nonEmpty16
  | 0x002d => some do let _ ← nonEmpty8
  | 0x002f => some do let _ ← each nonEmpty16 vector16
  | 0x0033 => some keyShares
  | 0x0039 => some do let _ ← rest
  | 0x003a => some do let _ ← u16
  | 0xfd00 => some do let _ ← each u16 nonEmpty8
  | 0xfe0d => some encryptedHello
  | 0xff01 => some do let _ ← vector8
  | _ => none

/-- Whether the body of an extension is well formed; of an unknown one it always is. -/
def Extension.isWellFormed (extension : Extension) : Bool :=
  match bodyOf extension.kind with
  | some decoder => (decoder.complete extension.body).isSome
  | none => true

/-- The kind of a pre-shared key offer. -/
def preSharedKeyKind : Nat := 0x0029

/-- The kind of a list of signature algorithms. -/
def signatureAlgorithmsKind : Nat := 0x000d

/-- The kind of a server name. -/
def serverNameKind : Nat := 0x0000

/-- Reads one extension. -/
def extensionEntry : Decoder Extension := do
  let kind ← u16
  return ⟨kind, ← vector16⟩

/-- Reads the extensions, which may be missing altogether. -/
def extensionList : Decoder (List Extension) := fun bytes =>
  if bytes = [] then some ([], [])
  else (each extensionEntry vector16).run bytes

/-! ## Hellos -/

/-- The longest session identifier. -/
def maxSessionId : Nat := 32

namespace ClientHello

/-- Reads a client hello. -/
def decoder : Decoder ClientHello := do
  let version ← u16
  let random ← take 32
  let sessionId ← vector8
  require (sessionId.length ≤ maxSessionId)
  let cipherSuites ← each u16 nonEmpty16
  let compressions ← each u8 nonEmpty8
  let extensions ← extensionList
  return { version, random, sessionId, cipherSuites, compressions, extensions }

/-- The extension of a kind. -/
def extension? (hello : ClientHello) (kind : Nat) : Option Extension :=
  hello.extensions.find? fun extension => extension.kind = kind

/-- Whether every extension is well formed and the only one of its kind, and an offer of pre-shared
keys the last one. -/
def hasSoundExtensions (hello : ClientHello) : Bool :=
  let kinds := hello.extensions.map Extension.kind
  hello.extensions.all Extension.isWellFormed && decide kinds.Nodup &&
    !kinds.dropLast.contains preSharedKeyKind

/-- Whether a server would go on with a hello: null compression is offered and signature algorithms
are named. -/
def isAcceptable (hello : ClientHello) : Bool :=
  hello.compressions.contains 0 && (hello.extension? signatureAlgorithmsKind).isSome

/-- The server name extension, if there is one. -/
def serverName? (hello : ClientHello) : Option ServerName :=
  match hello.extension? serverNameKind with
  | some extension => serverNameList.complete extension.body
  | none => none

/-- Decodes a hello that is well formed and acceptable. -/
def decode (bytes : Bytes) : Option ClientHello :=
  match decoder.complete bytes with
  | some hello =>
    if hello.hasSoundExtensions && hello.isAcceptable && hello.serverName? != some .invalid then
      some hello
    else none
  | none => none

/-- The server name that a hello asks for, in lowercase. -/
def serverName (hello : ClientHello) : Option String :=
  match hello.serverName? with
  | some (.dns name) => some (String.ofList (Text.asciiLower name.toList))
  | _ => none

end ClientHello

end SniffProxy.Tls
