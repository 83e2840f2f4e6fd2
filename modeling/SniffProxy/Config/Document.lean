import SniffProxy.Config.Basic
import SniffProxy.Toml.Document

/-!
# Configuration files

How a TOML document fills a configuration. What the document does not mention keeps its default, and
what no section knows is skipped. A section may also be written as an array of its parts in the
order of `RemoteSettings` and its siblings. `Config.ofToml` visits keys in the order of the document
and stops at the first one that does not fit.
-/

namespace SniffProxy

/-- Why a document is no configuration. -/
inductive DocumentFault where
  | notToml
  | wrongType
  | invalidDuration (text : String)
  | unknownRemoteType (name : String)
  deriving DecidableEq, Repr

/-- The wording of a duration that cannot be read. -/
def invalidDurationMessage (text : String) : String :=
  "Invalid duration '" ++ text ++ "'. Use formats like '60s', '2m', '1h' or plain seconds"

/-- What a fault says beyond the form of the document. -/
def DocumentFault.cause : DocumentFault → Option String
  | notToml | wrongType => none
  | invalidDuration text => some (invalidDurationMessage text)
  | unknownRemoteType name => some (ProxyError.config (.unknownRemoteType name)).message

namespace Toml.Value

/-! ## Scalars -/

/-- A text. -/
def toText : Value → Except DocumentFault String
  | string text => .ok text
  | _ => .error .wrongType

/-- A truth value. -/
def toFlag : Value → Except DocumentFault Bool
  | boolean b => .ok b
  | _ => .error .wrongType

/-- A count. -/
def toCount : Value → Except DocumentFault Nat
  | integer (.ofNat n) => .ok n
  | _ => .error .wrongType

/-- A duration, which is written as a text. -/
def toDuration (value : Value) : Except DocumentFault Duration :=
  match value.toText with
  | .error fault => .error fault
  | .ok text =>
    match Duration.ofString text with
    | some d => .ok d
    | none => .error (.invalidDuration text)

/-- A kind of remote. -/
def toRemoteKind (value : Value) : Except DocumentFault RemoteKind :=
  match value.toText with
  | .error fault => .error fault
  | .ok text =>
    match RemoteKind.ofName text with
    | .ok kind => .ok kind
    | .error _ => .error (.unknownRemoteType text)

/-! ## Sections -/

/-- A list of texts. -/
def toTexts : Value → Except DocumentFault (List String)
  | array items => items.mapM toText
  | _ => .error .wrongType

/-- Fills a section part by part. A date counts as a table of which no key is known. -/
def toSection {σ : Type} (keys : List String)
    (store : String → Value → σ → Except DocumentFault σ) (start : σ) :
    Value → Except DocumentFault σ
  | table _ entries =>
    entries.foldlM (fun s (key, value) => if key ∈ keys then store key value s else .ok s) start
  | array items => (keys.zip items).foldlM (fun s (key, value) => store key value s) start
  | listed earlier last =>
    (keys.zip ((earlier ++ [last]).map (table .header))).foldlM
      (fun s (key, value) => store key value s) start
  | date _ => .ok start
  | _ => .error .wrongType

/-- The remote. -/
def toRemote : Value → Except DocumentFault RemoteSettings :=
  toSection ["type", "addr", "user", "password"]
    (fun key value s =>
      match key with
      | "type" => value.toRemoteKind.map fun kind => { s with kind }
      | "addr" => value.toText.map fun address => { s with address }
      | "user" => value.toText.map fun user => { s with user }
      | _ => value.toText.map fun password => { s with password })
    {}

/-- The sniffers. -/
def toSniffers : Value → Except DocumentFault SnifferSettings :=
  toSection ["disable", "serve"]
    (fun key value s =>
      match key with
      | "disable" => value.toFlag.map fun disabled => { s with disabled }
      | _ => value.toText.map fun serve => { s with serve })
    {}

/-- The SOCKS5 front-end. -/
def toSocks : Value → Except DocumentFault SocksSettings :=
  toSection ["disable", "addr"]
    (fun key value s =>
      match key with
      | "disable" => value.toFlag.map fun disabled => { s with disabled }
      | _ => value.toText.map fun address => { s with address })
    {}

/-- A list of rules. -/
def toRuleList : Value → Except DocumentFault RuleList :=
  toSection ["file", "file_prefix", "rules"]
    (fun key value s =>
      match key with
      | "file" => value.toText.map fun file => { s with file := some file }
      | "file_prefix" => value.toText.map fun filePrefix => { s with filePrefix }
      | _ => value.toTexts.map fun rules => { s with rules })
    {}

/-- The rules. -/
def toRouter : Value → Except DocumentFault RouterConfig :=
  toSection ["block", "direct", "proxy"]
    (fun key value s =>
      match key with
      | "block" => value.toRuleList.map fun block => { s with block }
      | "direct" => value.toRuleList.map fun direct => { s with direct }
      | _ => value.toRuleList.map fun proxy => { s with proxy })
    {}

/-- The limits of connections. -/
def toConnection : Value → Except DocumentFault ConnectionSettings :=
  toSection
    ["connect_timeout", "request_timeout", "idle_timeout", "buffer_size", "max_connections",
      "tcp_nodelay"]
    (fun key value s =>
      match key with
      | "connect_timeout" => value.toDuration.map fun connectTimeout => { s with connectTimeout }
      | "request_timeout" => value.toDuration.map fun requestTimeout => { s with requestTimeout }
      | "idle_timeout" => value.toDuration.map fun idleTimeout => { s with idleTimeout }
      | "buffer_size" => value.toCount.map fun bufferSize => { s with bufferSize }
      | "max_connections" => value.toCount.map fun maxConnections => { s with maxConnections }
      | _ => value.toFlag.map fun tcpNoDelay => { s with tcpNoDelay })
    {}

/-- A whole configuration. -/
def toConfig : Value → Except DocumentFault Config :=
  toSection ["remote", "dns", "socks5", "router", "conn"]
    (fun key value s =>
      match key with
      | "remote" => value.toRemote.map fun remote => { s with remote }
      | "dns" => value.toSniffers.map fun sniffers => { s with sniffers }
      | "socks5" => value.toSocks.map fun socks => { s with socks }
      | "router" => value.toRouter.map fun router => { s with router }
      | _ => value.toConnection.map fun connection => { s with connection })
    {}

end Toml.Value

/-- The configuration that a document describes. -/
def Config.ofToml (text : String) : Except DocumentFault Config :=
  match Toml.parse text with
  | none => .error .notToml
  | some entries => (Toml.Value.table .header entries).toConfig

end SniffProxy
