import SniffProxy.Text

/-!
# Rule sets

A rule names hosts: `**.s` the host `s` and everything below it, `*.s` exactly one label below `s`,
anything else just itself. Rules and hosts are compared in a normal form without surrounding white
space, trailing dots and ASCII capitals. A rule set keeps the three kinds apart, so that a host is
matched by looking up the text after each of its dots.

* `RuleSet.insert`, `RuleSet.ofList` — adding rules.
* `RuleSet.size` — the number of distinct rules.
* `RuleSet.covers` — whether some rule names a host.
-/

namespace SniffProxy

/-- The normal form of a host or rule. -/
def normalizeHost (text : String) : List Char :=
  Text.asciiLower (Text.dropEndWhile (· = '.') (Text.trim text.toList))

/-- What a normalized rule names. -/
inductive RulePattern where
  | exactly (host : List Char)
  /-- A host and everything below it. -/
  | anyDepth (suffix : List Char)
  /-- Exactly one label below a host. -/
  | oneLabel (suffix : List Char)
  deriving DecidableEq, Repr

/-- The pattern that a normalized rule writes. -/
def RulePattern.ofChars : List Char → RulePattern
  | '*' :: '*' :: '.' :: suffix => anyDepth suffix
  | '*' :: '.' :: suffix => oneLabel suffix
  | host => exactly host

/-- Compiled rules, each kind without its marker and without repetition. -/
structure RuleSet where
  exact : List (List Char)
  anyDepth : List (List Char)
  oneLabel : List (List Char)
  deriving DecidableEq, Repr

namespace RuleSet

/-- No rules. -/
def empty : RuleSet := ⟨[], [], []⟩

/-- Adds a pattern. -/
def insertPattern (set : RuleSet) : RulePattern → RuleSet
  | .exactly host => { set with exact := set.exact.insert host }
  | .anyDepth suffix => { set with anyDepth := set.anyDepth.insert suffix }
  | .oneLabel suffix => { set with oneLabel := set.oneLabel.insert suffix }

/-- Adds a rule; one with an empty normal form adds nothing. -/
def insert (set : RuleSet) (rule : String) : RuleSet :=
  let rule := normalizeHost rule
  if rule = [] then set else set.insertPattern (RulePattern.ofChars rule)

/-- Adds rules one after another. -/
def insertAll (set : RuleSet) (rules : List String) : RuleSet :=
  rules.foldl insert set

/-- The set of some rules. -/
def ofList (rules : List String) : RuleSet :=
  empty.insertAll rules

/-- The number of distinct rules. -/
def size (set : RuleSet) : Nat :=
  set.exact.length + set.anyDepth.length + set.oneLabel.length

/-- Whether there is no rule. -/
def isEmpty (set : RuleSet) : Bool :=
  set.size = 0

/-- Whether a suffix rule names a host, judged by the text after each of its dots. One label below
a suffix means that the dot before the suffix is the first of the host. -/
def coversBelow (set : RuleSet) : (firstDot : Bool) → List Char → Bool
  | _, [] => false
  | firstDot, c :: rest =>
    if c = '.' then
      decide (rest ∈ set.anyDepth) || (firstDot && decide (rest ∈ set.oneLabel)) ||
        coversBelow set false rest
    else coversBelow set firstDot rest

/-- Whether a rule names a host in normal form. -/
def coversNormal (set : RuleSet) (host : List Char) : Bool :=
  if host = [] then false
  else decide (host ∈ set.exact) || decide (host ∈ set.anyDepth) || set.coversBelow true host

/-- Whether a rule names a host. -/
def covers (set : RuleSet) (host : String) : Bool :=
  set.coversNormal (normalizeHost host)

end RuleSet

end SniffProxy
