import SniffProxy.Duration
import SniffProxy.Router
import SniffProxy.Transport.Remote

/-!
# Configurations

What the program is told about the remote, its listeners, its rules and its connections.

* `Config.validate` — the first thing that keeps a configuration from being used.
* `Config.finalize` — a valid configuration with the rules that keep the remote itself, and the
  reverse DNS zones, off the remote.
-/

namespace SniffProxy

/-! ## Sections -/

/-- The remote and how to enter it. -/
structure RemoteSettings where
  kind : RemoteKind := .compact
  address : String := ""
  user : String := ""
  password : String := ""
  deriving DecidableEq, Repr

/-- Where the HTTP and HTTPS front-ends listen. -/
structure SnifferSettings where
  disabled : Bool := false
  serve : String := "127.0.0.1"
  deriving DecidableEq, Repr

/-- Where the SOCKS5 front-end listens. -/
structure SocksSettings where
  disabled : Bool := false
  address : String := ":1080"
  deriving DecidableEq, Repr

/-- Time and size limits of connections. -/
structure ConnectionSettings where
  connectTimeout : Duration := .ofSeconds 5
  requestTimeout : Duration := .ofSeconds 5
  idleTimeout : Duration := .ofSeconds 300
  bufferSize : Nat := 32768
  /-- The most connections that a listener serves at a time; zero for no limit. -/
  maxConnections : Nat := 0
  tcpNoDelay : Bool := true
  deriving DecidableEq, Repr

/-- Everything that the program can be told. -/
structure Config where
  remote : RemoteSettings := {}
  sniffers : SnifferSettings := {}
  socks : SocksSettings := {}
  router : RouterConfig := {}
  connection : ConnectionSettings := {}
  deriving DecidableEq, Repr

/-! ## Addresses -/

/-- The host and port of the remote, with the default port of its kind. -/
def RemoteSettings.endpoint (remote : RemoteSettings) : Option HostPort :=
  (HostPort.split remote.address remote.kind.defaultPort).filter fun target => target.host ≠ ""

/-- The address on which a sniffer listens. -/
def SnifferSettings.listenAddress (sniffers : SnifferSettings) (port : Port) : String :=
  if ':' ∈ sniffers.serve.toList then HostPort.join ("[" ++ sniffers.serve ++ "]") port
  else HostPort.join sniffers.serve port

/-- The address on which the SOCKS5 front-end listens; without a host, on all interfaces. -/
def SocksSettings.listenAddress (socks : SocksSettings) : String :=
  if socks.address.toList.head? = some ':' then "0.0.0.0" ++ socks.address else socks.address

/-! ## Validity -/

/-- What keeps a configuration from being used. -/
inductive SettingFault where
  | addressMissing
  | invalidAddress (address : String)
  | passwordMissing (kind : RemoteKind)
  | userMissing
  | serveMissing
  | socksAddressMissing
  | bufferSizeZero
  deriving DecidableEq, Repr

/-- The wording of a fault in the settings. -/
def SettingFault.message : SettingFault → String
  | addressMissing => "Remote address is required (--remote_addr)"
  | invalidAddress address => (ConfigFault.invalidRemoteAddress address).message
  | passwordMissing kind =>
    "Remote password is required for " ++ kind.name ++ " (--remote_password)"
  | userMissing => "Remote user is required for sshd (--remote_user)"
  | serveMissing => "DNS serve address is required (--dns_serve)"
  | socksAddressMissing => "SOCKS5 address is required (--socks5_addr)"
  | bufferSizeZero => "buffer_size must be greater than 0"

/-- Whether a remote of this kind asks for a password. -/
def RemoteKind.needsPassword : RemoteKind → Bool
  | socks5 => false
  | _ => true

/-- Whether a remote of this kind asks for a user. -/
def RemoteKind.needsUser : RemoteKind → Bool
  | sshd => true
  | _ => false

/-- The host and port of the remote, if it can be entered. -/
def RemoteSettings.validate (remote : RemoteSettings) : Except SettingFault HostPort :=
  if remote.address = "" then .error .addressMissing
  else
    match remote.endpoint with
    | none => .error (.invalidAddress remote.address)
    | some endpoint =>
      if remote.kind.needsPassword = true ∧ remote.password = "" then
        .error (.passwordMissing remote.kind)
      else if remote.kind.needsUser = true ∧ remote.user = "" then .error .userMissing
      else .ok endpoint

/-- The host and port of the remote, if the whole configuration can be used. -/
def Config.validate (config : Config) : Except SettingFault HostPort :=
  match config.remote.validate with
  | .error fault => .error fault
  | .ok endpoint =>
    if config.sniffers.disabled = false ∧ config.sniffers.serve = "" then .error .serveMissing
    else if config.socks.disabled = false ∧ config.socks.address = "" then
      .error .socksAddressMissing
    else if config.connection.bufferSize = 0 then .error .bufferSizeZero
    else .ok endpoint

/-- The zones that are never looked up through the remote. -/
def reverseZones : List String := ["**.in-addr.arpa", "**.ip6.arpa"]

/-- The configuration with more direct rules. -/
def Config.withDirect (config : Config) (rules : List String) : Config :=
  let direct := config.router.direct
  { config with
    router := { config.router with direct := { direct with rules := direct.rules ++ rules } } }

/-- A valid configuration, in which the host of the remote and the reverse zones are reached
directly. -/
def Config.finalize (config : Config) : Except SettingFault Config :=
  match config.validate with
  | .error fault => .error fault
  | .ok endpoint => .ok (config.withDirect (endpoint.host :: reverseZones))

end SniffProxy
