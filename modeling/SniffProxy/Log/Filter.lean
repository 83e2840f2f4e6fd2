import SniffProxy.Log

/-!
# Log filters

Which events are shown. A filter is a list of directives such as `info` or `sower::router=debug`; of
those that name a part of the program, the one with the longest name decides.

* `LogFilter.ofText?` — reads a filter.
* `LogFilter.ofSettings` — the filter of a run of the program.
* `LogFilter.shows` — whether an event passes.
-/

namespace SniffProxy

/-- The path of a part of the program, as filters name it. -/
def LogTarget.path : LogTarget → String
  | main => "sower"
  | dialer => "sower::dialer"
  | handler => "sower::handler"
  | logger => "sower::logger::log"
  | router => "sower::router"
  | server => "sower::server_runner"
  | sshTransport => "sower::transport::ssh"
  | trojanTransport => "sower::transport::trojan"

/-- From which level on events are shown. -/
inductive Threshold where
  | off
  | atLeast (level : LogLevel)
  deriving DecidableEq, Repr

namespace Threshold

/-- Whether a level is high enough. -/
def admits : Threshold → LogLevel → Bool
  | off, _ => false
  | atLeast least, level => least.severity ≤ level.severity

/-- The threshold with this number. -/
def ofNumber? : Nat → Option Threshold
  | 0 => some off
  | 1 => some (atLeast .error)
  | 2 => some (atLeast .warn)
  | 3 => some (atLeast .info)
  | 4 => some (atLeast .debug)
  | 5 => some (atLeast .trace)
  | _ => none

/-- The threshold with this name, in any ASCII case, or number. -/
def ofChars? (cs : List Char) : Option Threshold :=
  match (Text.readNatUpTo 5 cs).bind ofNumber? with
  | some threshold => some threshold
  | none =>
    if Text.asciiLower cs = "off".toList then some off
    else (LogLevel.ofName? (String.ofList cs)).map atLeast

/-- The threshold behind an equals sign; with nothing there, everything is shown. -/
def ofLevel? (cs : List Char) : Option Threshold :=
  if cs = [] then some (atLeast .trace) else ofChars? cs

end Threshold

/-- What a directive is about. -/
inductive DirectiveScope where
  | everything
  /-- The parts of the program whose path starts like this. -/
  | path (start : List Char)
  /-- Events within a span; the program opens none. -/
  | span
  deriving DecidableEq, Repr

/-- A threshold for some events. -/
structure Directive where
  scope : DirectiveScope
  threshold : Threshold
  deriving DecidableEq, Repr

namespace Directive

/-- Whether a directive may start with a character. -/
def isStart (c : Char) : Bool :=
  c = '-' || c = ':' || c = '_' || c.isAlphanum || 127 < c.toNat

/-- The directive behind the name of a span. -/
def ofSpan? (cs : List Char) : Option Directive :=
  match Text.cutFirst ']' cs with
  | some (_, []) => some ⟨.span, .atLeast .trace⟩
  | some (_, '=' :: level) => (Threshold.ofLevel? level).map fun threshold => ⟨.span, threshold⟩
  | _ => none

/-- Reads a directive: a level, a path, or both with an equals sign between them. The equals sign is
looked for in the text without surrounding white space, but counted off in the text as it stands. -/
def ofChars? (cs : List Char) : Option Directive :=
  match Text.trim cs with
  | [] => none
  | '[' :: rest => ofSpan? rest
  | c :: rest =>
    if isStart c = false then none
    else
      match (c :: rest).span fun c => c ≠ '=' && c ≠ '[' with
      | (path, '=' :: _) =>
        (Threshold.ofLevel? (cs.drop (path.length + 1))).map fun threshold =>
          ⟨.path (cs.take path.length), threshold⟩
      | (_, '[' :: rest) => ofSpan? rest
      | _ =>
        match Threshold.ofChars? cs with
        | some threshold => some ⟨.everything, threshold⟩
        | none => some ⟨.path cs, .atLeast .trace⟩

/-- How specific a directive is where it applies: the longer its path, the more. -/
def weight (path : List Char) : Directive → Option Nat
  | ⟨.everything, _⟩ => some 0
  | ⟨.path start, _⟩ => if start.isPrefixOf path then some (start.length + 1) else none
  | ⟨.span, _⟩ => none

end Directive

/-- Directives in the order in which they were given. -/
structure LogFilter where
  directives : List Directive
  deriving DecidableEq, Repr

namespace LogFilter

/-- The filter that shows the program's events from a level on. -/
def ofLevel (level : LogLevel) : LogFilter :=
  ⟨[⟨.path "sower".toList, .atLeast level⟩]⟩

/-- Reads a filter, the directives of which stand between commas. Without any, errors are shown. -/
def ofText? (text : String) : Option LogFilter :=
  let parts := (Text.splitAt ',' text.toList).filter fun part => !part.isEmpty
  match parts.mapM Directive.ofChars? with
  | none => none
  | some [] => some ⟨[⟨.everything, .atLeast .error⟩]⟩
  | some directives => some ⟨directives⟩

/-- The filter that a setting of the environment asks for, or else the level with a name. A setting
that makes no sense counts as none, a name that is unknown as the default level. -/
def ofSettings (setting : Option String) (levelName : String) : LogFilter :=
  (setting.bind ofText?).getD (ofLevel ((LogLevel.ofName? levelName).getD .default))

/-- The most specific threshold for a path, the last one of those that are equally specific. -/
def threshold (filter : LogFilter) (path : List Char) : Option Threshold :=
  (filter.directives.foldl (fun best directive =>
    match directive.weight path, best with
    | none, _ => best
    | some weight, none => some (weight, directive.threshold)
    | some weight, some (least, _) =>
      if least ≤ weight then some (weight, directive.threshold) else best)
    (none : Option (Nat × Threshold))).map fun best => best.2

/-- Whether an event passes. -/
def shows (filter : LogFilter) (event : LogEvent) : Bool :=
  match filter.threshold event.target.path.toList with
  | some threshold => threshold.admits event.level
  | none => false

end LogFilter

end SniffProxy
