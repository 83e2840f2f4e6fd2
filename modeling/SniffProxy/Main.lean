import SniffProxy.Program.Run

/-!
# The command line

Runs the program on a machine without a network: it is launched with the arguments and the
environment, nobody connects, and it is told to end. The configuration file that the arguments name
is read from standard input. The events that are shown go to standard output, a failure to standard
error.
-/

namespace SniffProxy.CommandLine

/-- The variables of the environment that count. -/
def variableNames : List String :=
  "RUST_LOG" :: Setting.all.map Setting.environmentName

/-- The variables that are set. -/
def readEnvironment : IO (List (String × String)) :=
  variableNames.filterMapM fun name => do
    let value ← IO.getEnv name
    return value.map fun text => (name, text)

/-- All lines that are still to come, joined. -/
partial def readText (input : IO.FS.Stream) (text : String) : IO String := do
  let line ← input.getLine
  if line.isEmpty then return text
  readText input (text ++ line)

/-- The configuration file that a command line names, if it is understood and names one. -/
def readFiles (arguments : List String) (environment : List (String × String)) : IO FileTree := do
  match Arguments.read arguments environment with
  | .error _ => return ⟨[]⟩
  | .ok a =>
    match a.configFile with
    | none => return ⟨[]⟩
    | some path =>
      let text ← readText (← IO.getStdin) ""
      return ⟨[(path, utf8 text)]⟩

end SniffProxy.CommandLine

open SniffProxy in
/-- Runs the program once. -/
def main (arguments : List String) : IO UInt32 := do
  let environment ← CommandLine.readEnvironment
  let files ← CommandLine.readFiles arguments environment
  match Program.run ⟨arguments, environment, files⟩ {} with
  | none => return 1
  | some run =>
    run.log.forM fun event => IO.println event.consoleLine
    run.error.forM fun message => IO.eprintln ("Error: " ++ message)
    return UInt32.ofNat run.status
