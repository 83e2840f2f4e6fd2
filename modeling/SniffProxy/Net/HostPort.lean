import SniffProxy.Bytes
import SniffProxy.Text

/-!
# Host and port texts

The texts in which a destination or a listening address is written: `host`, `host:port`,
`[literal]`, `[literal]:port`, or a bare IPv6 literal. `HostPort.split` takes such a text apart,
`HostPort.join` writes one.
-/

namespace SniffProxy

/-- A host name or literal with its port. -/
structure HostPort where
  host : String
  port : Port
  deriving DecidableEq, Repr

namespace HostPort

/-- The port with this decimal numeral. -/
def readPort (cs : List Char) : Option Port :=
  (Text.readNatUpTo 65535 cs).map UInt16.ofNat

/-- Takes `host`, `host:port`, `[literal]` or `[literal]:port` apart. A text with two or more
colons and no opening bracket is a bare IPv6 literal. -/
def splitChars (cs : List Char) (default : Port) : Option (List Char × Port) :=
  match cs with
  | '[' :: rest =>
    match Text.cutFirst ']' rest with
    | none => none
    | some (host, []) => some (host, default)
    | some (host, ':' :: port) => (readPort port).map fun p => (host, p)
    | some (_, _ :: _) => none
  | _ =>
    match Text.cutLast ':' cs with
    | none => some (cs, default)
    | some (host, port) =>
      if ':' ∈ host then some (cs, default)
      else (readPort port).map fun p => (host, p)

/-- The host and port of a text, with the default port where the text names none. -/
def split (text : String) (default : Port) : Option HostPort :=
  (splitChars text.toList default).map fun (host, port) => ⟨String.ofList host, port⟩

/-- The text `host:port`. -/
def join (host : String) (port : Port) : String :=
  host ++ ":" ++ toString port.toNat

end HostPort

end SniffProxy
