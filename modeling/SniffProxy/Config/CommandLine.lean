import SniffProxy.Config.Document

/-!
# The command line

Settings given as arguments or as environment variables. An option counts as soon as the next one,
or the end, shows that its value is complete; what the arguments do not give is taken from the
environment.

* `Arguments.read` — the settings of arguments and environment, or why they are refused.
-/

namespace SniffProxy

/-- The settings of a command line. -/
structure Arguments where
  configFile : Option String := none
  remoteType : Option String := none
  remoteAddress : Option String := none
  remoteUser : Option String := none
  remotePassword : Option String := none
  sniffersServe : Option String := none
  sniffersDisabled : Bool := false
  socksAddress : Option String := none
  socksDisabled : Bool := false
  blockRules : List String := []
  directRules : List String := []
  proxyRules : List String := []
  logMode : String := "info"
  connectTimeout : Option Duration := none
  requestTimeout : Option Duration := none
  idleTimeout : Option Duration := none
  bufferSize : Option Nat := none
  maxConnections : Option Nat := none
  tcpNoDelay : Option Bool := none
  deriving DecidableEq, Repr

/-- Why a command line is not carried out. -/
inductive Refusal where
  | unknownArgument
  /-- A value is missing, or it is none of those allowed. -/
  | invalidValue
  /-- A value cannot be read. -/
  | unreadableValue
  /-- An option that may be given once is given again. -/
  | repeated
  /-- A value is attached to an option that takes none. -/
  | unneededValue
  | helpRequested
  | versionRequested
  deriving DecidableEq, Repr

/-! ## Options -/

/-- The options that stand for settings, in the order in which the environment is asked. -/
inductive Setting where
  | configFile
  | remoteType
  | remoteAddress
  | remoteUser
  | remotePassword
  | sniffersServe
  | sniffersDisabled
  | socksAddress
  | socksDisabled
  | blockRules
  | directRules
  | proxyRules
  | logMode
  | connectTimeout
  | requestTimeout
  | idleTimeout
  | bufferSize
  | maxConnections
  | tcpNoDelay
  deriving DecidableEq, Repr

namespace Setting

/-- All settings, in order. -/
def all : List Setting :=
  [configFile, remoteType, remoteAddress, remoteUser, remotePassword, sniffersServe,
    sniffersDisabled, socksAddress, socksDisabled, blockRules, directRules, proxyRules, logMode,
    connectTimeout, requestTimeout, idleTimeout, bufferSize, maxConnections, tcpNoDelay]

/-- The long name of an option. -/
def name : Setting → String
  | configFile => "config"
  | remoteType => "remote_type"
  | remoteAddress => "remote_addr"
  | remoteUser => "remote_user"
  | remotePassword => "remote_password"
  | sniffersServe => "dns_serve"
  | sniffersDisabled => "dns_disable"
  | socksAddress => "socks5_addr"
  | socksDisabled => "socks5_disable"
  | blockRules => "block_rules"
  | directRules => "direct_rules"
  | proxyRules => "proxy_rules"
  | logMode => "log_mode"
  | connectTimeout => "connect_timeout"
  | requestTimeout => "request_timeout"
  | idleTimeout => "idle_timeout"
  | bufferSize => "buffer_size"
  | maxConnections => "max_connections"
  | tcpNoDelay => "tcp_nodelay"

/-- The environment variable of a setting. -/
def environmentName (setting : Setting) : String :=
  "SOWER_" ++ String.ofList (setting.name.toList.map Char.toUpper)

/-- Whether the option is a switch, which takes no value on the command line. -/
def isSwitch : Setting → Bool
  | sniffersDisabled | socksDisabled => true
  | _ => false

/-- Whether the option collects what it is given. -/
def isList : Setting → Bool
  | blockRules | directRules | proxyRules => true
  | _ => false

/-- The setting with this long name. -/
def ofName? (name : String) : Option Setting :=
  all.find? fun setting => setting.name = name

end Setting

/-! ## Values -/

/-- A truth value, spelled in full. -/
def readFlag : String → Except Refusal Bool
  | "true" => .ok true
  | "false" => .ok false
  | _ => .error .invalidValue

/-- A duration. -/
def readDuration (text : String) : Except Refusal Duration :=
  match Duration.ofString text with
  | some d => .ok d
  | none => .error .unreadableValue

/-- The greatest count. -/
def largestCount : Nat := Nat.pow 2 64 - 1

/-- A count. -/
def readCount (text : String) : Except Refusal Nat :=
  match Text.readNatUpTo largestCount text.toList with
  | some n => .ok n
  | none => .error .unreadableValue

/-- The items of a list between its commas; empty ones count. -/
def readRules (text : String) : List String :=
  (Text.splitAt ',' text.toList).map String.ofList

/-- Stores the value of a setting. -/
def Arguments.store (a : Arguments) (value : String) : Setting → Except Refusal Arguments
  | .configFile =>
    if value = "" then .error .invalidValue else .ok { a with configFile := some value }
  | .remoteType => .ok { a with remoteType := some value }
  | .remoteAddress => .ok { a with remoteAddress := some value }
  | .remoteUser => .ok { a with remoteUser := some value }
  | .remotePassword => .ok { a with remotePassword := some value }
  | .sniffersServe => .ok { a with sniffersServe := some value }
  | .sniffersDisabled => (readFlag value).map fun b => { a with sniffersDisabled := b }
  | .socksAddress => .ok { a with socksAddress := some value }
  | .socksDisabled => (readFlag value).map fun b => { a with socksDisabled := b }
  | .blockRules => .ok { a with blockRules := a.blockRules ++ readRules value }
  | .directRules => .ok { a with directRules := a.directRules ++ readRules value }
  | .proxyRules => .ok { a with proxyRules := a.proxyRules ++ readRules value }
  | .logMode => .ok { a with logMode := value }
  | .connectTimeout => (readDuration value).map fun d => { a with connectTimeout := some d }
  | .requestTimeout => (readDuration value).map fun d => { a with requestTimeout := some d }
  | .idleTimeout => (readDuration value).map fun d => { a with idleTimeout := some d }
  | .bufferSize => (readCount value).map fun n => { a with bufferSize := some n }
  | .maxConnections => (readCount value).map fun n => { a with maxConnections := some n }
  | .tcpNoDelay => (readFlag value).map fun b => { a with tcpNoDelay := some b }

/-! ## Reading -/

namespace Arguments

/-- How far a command line has been read. -/
structure Progress where
  arguments : Arguments := {}
  /-- The settings that have been stored. -/
  given : List Setting := []
  /-- The last option, with its value once that has come. -/
  waiting : Option (Setting × Option String) := none

namespace Progress

/-- Takes the value of an option. -/
def accept (p : Progress) (setting : Setting) (value : String) : Except Refusal Progress :=
  if setting.isList = false ∧ setting ∈ p.given then .error .repeated
  else
    match p.arguments.store value setting with
    | .ok arguments => .ok { p with arguments, given := setting :: p.given }
    | .error refusal => .error refusal

/-- Takes the value of the last option, which must have come by now. -/
def settle (p : Progress) : Except Refusal Progress :=
  match p.waiting with
  | none => .ok p
  | some (_, none) => .error .invalidValue
  | some (setting, some value) => accept { p with waiting := none } setting value

/-- Refuses for a reason of its own once the last option is in order. -/
def refuse (p : Progress) (refusal : Refusal) : Except Refusal Progress :=
  match p.settle with
  | .ok _ => .error refusal
  | .error earlier => .error earlier

/-- An option with its value, if one is attached. -/
def option (p : Progress) (setting : Setting) (attached : Option String) :
    Except Refusal Progress :=
  match setting.isSwitch, attached with
  | true, some _ => .error .unneededValue
  | true, none =>
    match p.settle with
    | .ok p => p.accept setting "true"
    | .error refusal => .error refusal
  | false, some value =>
    match p.settle with
    | .ok p => p.accept setting value
    | .error refusal => .error refusal
  | false, none =>
    match p.settle with
    | .ok p => .ok { p with waiting := some (setting, none) }
    | .error refusal => .error refusal

/-- An argument behind two hyphens. -/
def long (p : Progress) (cs : List Char) : Except Refusal Progress :=
  let (name, attached) :=
    match Text.cutFirst '=' cs with
    | some (name, value) => (String.ofList name, some (String.ofList value))
    | none => (String.ofList cs, none)
  match name, attached with
  | "help", none => p.refuse .helpRequested
  | "help", some _ => .error .unneededValue
  | "version", none => p.refuse .versionRequested
  | "version", some _ => .error .unneededValue
  | _, _ =>
    match Setting.ofName? name with
    | some setting => p.option setting attached
    | none => .error .unknownArgument

/-- An argument behind one hyphen. -/
def short (p : Progress) : List Char → Except Refusal Progress
  | 'h' :: _ => p.refuse .helpRequested
  | 'V' :: _ => p.refuse .versionRequested
  | 'f' :: [] => p.option .configFile none
  | 'f' :: '=' :: value => p.option .configFile (some (String.ofList value))
  | 'f' :: value => p.option .configFile (some (String.ofList value))
  | _ => .error .unknownArgument

/-- An argument that is no option: the value of the last option, if it waits for one. -/
def plain (p : Progress) (value : String) : Except Refusal Progress :=
  match p.waiting with
  | some (setting, none) => .ok { p with waiting := some (setting, some value) }
  | _ => .error .unknownArgument

/-- Reads the arguments one after another. Behind a bare `--` there may be none. -/
def arguments? (p : Progress) : List String → Except Refusal Progress
  | [] => p.settle
  | argument :: rest =>
    let next : Except Refusal Progress :=
      match argument.toList with
      | ['-', '-'] =>
        match rest with
        | [] => .ok p
        | _ => .error .unknownArgument
      | '-' :: '-' :: cs => p.long cs
      | '-' :: c :: cs => p.short (c :: cs)
      | _ => p.plain argument
    match next with
    | .ok p => arguments? p rest
    | .error refusal => .error refusal

/-- Asks the environment for a setting that the arguments do not give. -/
def environment (env : List (String × String)) (given : List Setting) (p : Progress)
    (setting : Setting) : Except Refusal Progress :=
  if setting ∈ given then .ok p
  else
    match env.lookup setting.environmentName with
    | some value => p.accept setting value
    | none => .ok p

end Progress

/-- The settings of a command line. -/
def read (arguments : List String) (env : List (String × String)) :
    Except Refusal Arguments :=
  match Progress.arguments? {} arguments with
  | .error refusal => .error refusal
  | .ok p =>
    match Setting.all.foldlM (Progress.environment env p.given) p with
    | .ok p => .ok p.arguments
    | .error refusal => .error refusal

end Arguments

end SniffProxy
