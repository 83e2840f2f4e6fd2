import SniffProxy.Error

/-!
# Log events

What the program reports while it runs. An event is a level, a message and named values; it is
rendered either with its values sorted by name (`LogEvent.summary`) or in the order in which they
were given, as on the console (`LogEvent.consoleLine`).
-/

namespace SniffProxy

/-! ## Levels -/

/-- How much an event matters. -/
inductive LogLevel where
  | trace
  | debug
  | info
  | warn
  | error
  deriving DecidableEq, Repr

namespace LogLevel

/-- The lowercase name of a level. -/
def name : LogLevel → String
  | trace => "trace"
  | debug => "debug"
  | info => "info"
  | warn => "warn"
  | error => "error"

/-- The name of a level as log lines show it. -/
def label : LogLevel → String
  | trace => "TRACE"
  | debug => "DEBUG"
  | info => "INFO"
  | warn => "WARN"
  | error => "ERROR"

/-- The position in the order from the quietest concern to the gravest. -/
def severity : LogLevel → Nat
  | trace => 0
  | debug => 1
  | info => 2
  | warn => 3
  | error => 4

/-- The level with this name, in any ASCII case. -/
def ofName? (text : String) : Option LogLevel :=
  match String.ofList (Text.asciiLower text.toList) with
  | "trace" => some trace
  | "debug" => some debug
  | "info" => some info
  | "warn" => some warn
  | "error" => some error
  | _ => none

/-- The level where none, or an unknown one, is given. -/
def default : LogLevel := info

end LogLevel

/-- The level at which a failed connection is reported: sniffers warn themselves and resets are
routine, a blocked target is news, anything else deserves attention. -/
def ProxyError.level : ProxyError → LogLevel
  | .sniffParse _ => .debug
  | .io _ => .debug
  | .blocked _ => .info
  | _ => .warn

/-! ## Events -/

/-- A value attached to an event. -/
inductive FieldValue where
  /-- A text shown as it is. -/
  | shown (text : String)
  /-- A text that the console puts between quotes. -/
  | quoted (text : String)
  | number (n : Nat)
  | flag (b : Bool)
  deriving DecidableEq, Repr

/-- The text of a value without quotes. -/
def FieldValue.bare : FieldValue → String
  | shown text => text
  | quoted text => text
  | number n => toString n
  | flag b => if b then "true" else "false"

/-- A character between console quotes. -/
def escapeChar (c : Char) : List Char :=
  match c with
  | '"' => ['\\', '"']
  | '\\' => ['\\', '\\']
  | '\n' => ['\\', 'n']
  | '\r' => ['\\', 'r']
  | '\t' => ['\\', 't']
  | _ =>
    if c.toNat = 0 then ['\\', '0']
    else if c.toNat < 0x20 ∨ (0x7f ≤ c.toNat ∧ c.toNat < 0xa0) then
      ['\\', 'u', Char.ofNat 0x7b] ++ Nat.toDigits 16 c.toNat ++ [Char.ofNat 0x7d]
    else [c]

/-- A text between console quotes. -/
def quoteText (text : String) : String :=
  "\"" ++ String.ofList (text.toList.flatMap escapeChar) ++ "\""

/-- The text of a value on the console. -/
def FieldValue.console : FieldValue → String
  | quoted text => quoteText text
  | value => value.bare

/-- The part of the program an event comes from. -/
inductive LogTarget where
  | main
  | dialer
  | handler
  | logger
  | router
  | server
  | sshTransport
  | trojanTransport
  deriving DecidableEq, Repr

/-- Something the program reports. -/
structure LogEvent where
  level : LogLevel
  target : LogTarget
  message : String
  fields : List (String × FieldValue) := []
  deriving DecidableEq, Repr

namespace LogEvent

/-- The fields in the order of their names. -/
def sortedFields (event : LogEvent) : List (String × FieldValue) :=
  event.fields.mergeSort fun x y => decide (x.1 ≤ y.1)

/-- Level, message, and the fields in the order of their names. -/
def summary (event : LogEvent) : String :=
  event.sortedFields.foldl (fun line (name, value) => line ++ " " ++ name ++ "=" ++ value.bare)
    (event.level.label ++ " " ++ event.message)

/-- Level, message, and the fields in the order given, with quotes where the console has them. -/
def consoleLine (event : LogEvent) : String :=
  event.fields.foldl (fun line (name, value) => line ++ " " ++ name ++ "=" ++ value.console)
    (event.level.label ++ " " ++ event.message)

/-! ## The events of a connection -/

/-- A connection failed. -/
def connectionFailed (peer frontend : String) (error : ProxyError) : LogEvent where
  level := error.level
  target := .logger
  message := "Connection failed"
  fields := [("peer", .shown peer), ("frontend", .quoted frontend), ("error", .shown error.message)]

/-- A connection began or ended. -/
def connection (peer event : String) : LogEvent where
  level := .debug
  target := .logger
  message := "Connection"
  fields := [("peer", .shown peer), ("event", .quoted event)]

/-- A front-end found the destination of a connection. -/
def sniffed (frontend : String) (target : HostPort) : LogEvent where
  level := .debug
  target := .logger
  message := "Sniffed"
  fields := [("frontend", .quoted frontend), ("host", .quoted target.host),
    ("port", .number target.port.toNat)]

/-- A destination was routed. -/
def routed (marker : String) (target : HostPort) : LogEvent where
  level := .info
  target := .logger
  message := marker ++ " " ++ HostPort.join target.host target.port

end LogEvent

end SniffProxy
