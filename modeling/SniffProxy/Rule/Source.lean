import SniffProxy.Files
import SniffProxy.Rule.Set

/-!
# Rule lists

Where the rules of a list come from: rules given inline, and a file with one rule per line, each of
them completed by a prefix.
-/

namespace SniffProxy

/-- Inline rules and an optional file. -/
structure RuleList where
  file : Option String := none
  /-- Put in front of every line of the file. -/
  filePrefix : String := "**."
  rules : List String := []
  deriving DecidableEq, Repr

namespace RuleList

/-- The trimmed lines of a text, without blank ones. -/
def lines (text : String) : List String :=
  (((Text.splitAt '\n' text.toList).map Text.trim).filter fun line => !line.isEmpty).map
    String.ofList

/-- The rules in a file. -/
def fileRules (tree : FileTree) (path linePrefix : String) : Except ProxyError (List String) :=
  match tree.readText path with
  | .ok text => .ok ((lines text).map fun line => linePrefix ++ line)
  | .error cause => .error (.config (.ruleFile path cause))

/-- The rule set of a list. -/
def compile (tree : FileTree) (list : RuleList) : Except ProxyError RuleSet :=
  match list.file with
  | none => .ok (RuleSet.ofList list.rules)
  | some path =>
    match fileRules tree path list.filePrefix with
    | .ok rules => .ok ((RuleSet.ofList list.rules).insertAll rules)
    | .error error => .error error

end RuleList

end SniffProxy
