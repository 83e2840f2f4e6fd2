import SniffProxy.Config.CommandLine
import SniffProxy.Files

/-!
# Loading a configuration

Three layers make a configuration, later ones winning: the defaults, a file, the command line with
the environment. `Config.load` puts them together and answers a configuration that can be used, or
why there is none.
-/

namespace SniffProxy

/-- Why no configuration is loaded. -/
inductive LoadError where
  | unreadableFile (path : String) (cause : IoError)
  | badFile (path : String) (fault : DocumentFault)
  | refused (error : ProxyError)
  | invalid (fault : SettingFault)
  deriving DecidableEq, Repr

/-- The text shown for a configuration that is not loaded. -/
def LoadError.message : LoadError → String
  | unreadableFile path _ => "Failed to read config file " ++ path
  | badFile path _ => "Failed to parse config file " ++ path
  | refused error => error.message
  | invalid fault => fault.message

/-- The rules of a list and then more. -/
def RuleList.append (list : RuleList) (rules : List String) : RuleList :=
  { list with rules := list.rules ++ rules }

/-- The remote as the command line changes it. -/
def RemoteSettings.override (remote : RemoteSettings) (a : Arguments) (kind : RemoteKind) :
    RemoteSettings where
  kind := kind
  address := a.remoteAddress.getD remote.address
  user := a.remoteUser.getD remote.user
  password := a.remotePassword.getD remote.password

/-- The limits as the command line changes them. -/
def ConnectionSettings.override (c : ConnectionSettings) (a : Arguments) : ConnectionSettings where
  connectTimeout := a.connectTimeout.getD c.connectTimeout
  requestTimeout := a.requestTimeout.getD c.requestTimeout
  idleTimeout := a.idleTimeout.getD c.idleTimeout
  bufferSize := a.bufferSize.getD c.bufferSize
  maxConnections := a.maxConnections.getD c.maxConnections
  tcpNoDelay := a.tcpNoDelay.getD c.tcpNoDelay

namespace Config

/-- The kind of remote that a command line asks for, or else the one given. -/
def chosenKind (a : Arguments) (kind : RemoteKind) : Except ProxyError RemoteKind :=
  match a.remoteType with
  | some name => RemoteKind.ofName name
  | none => .ok kind

/-- The configuration as the command line changes it. -/
def override (config : Config) (a : Arguments) : Except ProxyError Config :=
  match chosenKind a config.remote.kind with
  | .error error => .error error
  | .ok kind =>
    .ok {
      remote := config.remote.override a kind
      sniffers :=
        { disabled := config.sniffers.disabled || a.sniffersDisabled
          serve := a.sniffersServe.getD config.sniffers.serve }
      socks :=
        { disabled := config.socks.disabled || a.socksDisabled
          address := a.socksAddress.getD config.socks.address }
      router :=
        { block := config.router.block.append a.blockRules
          direct := config.router.direct.append a.directRules
          proxy := config.router.proxy.append a.proxyRules }
      connection := config.connection.override a }

/-- The configuration of the file that the command line names, or else the defaults. -/
def ofFile (tree : FileTree) : Option String → Except LoadError Config
  | none => .ok {}
  | some path =>
    match tree.readText path with
    | .error cause => .error (.unreadableFile path cause)
    | .ok text =>
      match ofToml text with
      | .error fault => .error (.badFile path fault)
      | .ok config => .ok config

/-- A configuration changed by the command line, ready for use. -/
def complete (config : Config) (a : Arguments) : Except LoadError Config :=
  match config.override a with
  | .error error => .error (.refused error)
  | .ok config =>
    match config.finalize with
    | .error fault => .error (.invalid fault)
    | .ok config => .ok config

/-- Puts all layers together. -/
def load (tree : FileTree) (a : Arguments) : Except LoadError Config :=
  match ofFile tree a.configFile with
  | .error error => .error error
  | .ok config => config.complete a

end Config

end SniffProxy
