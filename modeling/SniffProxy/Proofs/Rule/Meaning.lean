import Mathlib.Data.List.Dedup
import SniffProxy.Proofs.Rule.Cover
import SniffProxy.Proofs.Rule.Normal

/-!
# What rules mean

A rule set cuts the markers off its rules and keeps what is left in three lists. What it covers and
how large it is can be said without them, from the texts of the rules alone. A list with a file
means its inline rules and those of the lines of the file, whichever way these are ended.

* `RuleNames`, `Matched` — the hosts that a rule and a list of rules name.
* `RuleSet.Means` — a set covers just the hosts that some rules match, and counts each rule once.
* `HasLines` — the lines of a text.
* `RuleList.compile_eq` — a list is compiled from the texts of its rules.
* `RuleSet.means_rules` — a set means the rules that were put into it.
-/

namespace SniffProxy

/-! ## Single rules -/

/-- A rule names a host, both in normal form: `**.s` names `s` and whatever ends with `.s`, `*.s`
whatever is one label in front of `.s`, and any other text itself. -/
inductive RuleNames : (rule host : List Char) → Prop where
  | anyDepth {suffix host : List Char} (h : host = suffix ∨ '.' :: suffix <:+ host) :
      RuleNames ('*' :: '*' :: '.' :: suffix) host
  | oneLabel {suffix label : List Char} (h : '.' ∉ label) :
      RuleNames ('*' :: '.' :: suffix) (label ++ '.' :: suffix)
  | exactly {rule : List Char} (hany : ¬ ['*', '*', '.'] <+: rule) (hone : ¬ ['*', '.'] <+: rule) :
      RuleNames rule rule

/-- Some of the rules names the host. -/
def Matched (rules : List String) (host : String) : Prop :=
  normalizeHost host ≠ [] ∧ ∃ rule ∈ rules, normalizeHost rule ≠ [] ∧
    RuleNames (normalizeHost rule) (normalizeHost host)

namespace RulePattern

/-- The pattern of a text names just what the text does. -/
theorem names_ofChars_iff (rule host : List Char) :
    (ofChars rule).Names host ↔ RuleNames rule host := by
  unfold ofChars
  split
  · rename_i suffix
    constructor
    · rintro (heq | ⟨front, rfl⟩)
      · exact .anyDepth (.inl heq)
      · exact .anyDepth (.inr ⟨front, rfl⟩)
    · intro h
      cases h with
      | anyDepth h =>
        obtain heq | ⟨front, hfront⟩ := h
        · exact .inl heq
        · exact .inr ⟨front, hfront.symm⟩
      | exactly hany _ => exact absurd ⟨suffix, rfl⟩ hany
  · rename_i suffix
    constructor
    · rintro ⟨label, hlabel, rfl⟩
      exact .oneLabel hlabel
    · intro h
      cases h with
      | oneLabel hlabel => exact ⟨_, hlabel, rfl⟩
      | exactly _ hone => exact absurd ⟨suffix, rfl⟩ hone
  · rename_i hany hone
    constructor
    · rintro rfl
      refine .exactly ?_ ?_
      · rintro ⟨suffix, rfl⟩
        exact hany suffix rfl
      · rintro ⟨suffix, rfl⟩
        exact hone suffix rfl
    · intro h
      cases h with
      | anyDepth _ => exact absurd rfl (hany _)
      | oneLabel _ => exact absurd rfl (hone _)
      | exactly _ _ => rfl

/-- The text of a pattern. -/
def toChars : RulePattern → List Char
  | exactly host => host
  | anyDepth suffix => '*' :: '*' :: '.' :: suffix
  | oneLabel suffix => '*' :: '.' :: suffix

theorem toChars_ofChars (cs : List Char) : (ofChars cs).toChars = cs := by
  unfold ofChars
  split <;> rfl

/-- Different texts are different rules. -/
theorem ofChars_injective : Function.Injective ofChars :=
  Function.LeftInverse.injective toChars_ofChars

end RulePattern

/-! ## Sets of rules -/

namespace RuleSet

/-- A set covers the hosts that its rules match. -/
theorem covers_ofList_iff (rules : List String) (host : String) :
    (ofList rules).covers host = true ↔ Matched rules host := by
  rw [covers_iff]
  refine and_congr_right fun _ => ?_
  constructor
  · rintro ⟨pattern, hhas, hnames⟩
    obtain ⟨rule, hrule, hne, rfl⟩ := (has_ofList rules pattern).mp hhas
    exact ⟨rule, hrule, hne, (RulePattern.names_ofChars_iff _ _).mp hnames⟩
  · rintro ⟨rule, hrule, hne, hnames⟩
    exact ⟨_, (has_ofList rules _).mpr ⟨rule, hrule, hne, rfl⟩,
      (RulePattern.names_ofChars_iff _ _).mpr hnames⟩

/-- The patterns of a set. -/
def patterns (set : RuleSet) : List RulePattern :=
  set.exact.map .exactly ++ (set.anyDepth.map .anyDepth ++ set.oneLabel.map .oneLabel)

theorem length_patterns (set : RuleSet) : set.patterns.length = set.size := by
  simp only [patterns, size, List.length_append, List.length_map, Nat.add_assoc]

theorem mem_patterns {set : RuleSet} {pattern : RulePattern} :
    pattern ∈ set.patterns ↔ set.Has pattern := by
  cases pattern <;> simp [patterns, Has]

/-- No text stands twice in a list of the set. -/
structure Distinct (set : RuleSet) : Prop where
  exact : set.exact.Nodup
  anyDepth : set.anyDepth.Nodup
  oneLabel : set.oneLabel.Nodup

theorem Distinct.insert {set : RuleSet} (h : set.Distinct) (rule : String) :
    (set.insert rule).Distinct := by
  unfold RuleSet.insert
  dsimp only
  split
  · exact h
  · cases RulePattern.ofChars (normalizeHost rule) with
    | exactly host => exact { h with exact := h.exact.insert }
    | anyDepth suffix => exact { h with anyDepth := h.anyDepth.insert }
    | oneLabel suffix => exact { h with oneLabel := h.oneLabel.insert }

theorem Distinct.insertAll {set : RuleSet} (h : set.Distinct) (rules : List String) :
    (set.insertAll rules).Distinct := by
  induction rules generalizing set with
  | nil => exact h
  | cons rule rules ih => exact ih (h.insert rule)

theorem Distinct.nodup_patterns {set : RuleSet} (h : set.Distinct) : set.patterns.Nodup := by
  have hexact : (set.exact.map RulePattern.exactly).Nodup :=
    h.exact.map fun _ _ heq => RulePattern.exactly.inj heq
  have hany : (set.anyDepth.map RulePattern.anyDepth).Nodup :=
    h.anyDepth.map fun _ _ heq => RulePattern.anyDepth.inj heq
  have hone : (set.oneLabel.map RulePattern.oneLabel).Nodup :=
    h.oneLabel.map fun _ _ heq => RulePattern.oneLabel.inj heq
  refine hexact.append (hany.append hone ?_) ?_
  · simp [List.Disjoint]
  · simp [List.Disjoint]

/-- A set has one rule for each normal form that is not empty. -/
theorem size_ofList (rules : List String) :
    (ofList rules).size = ((rules.map normalizeHost).filter (· ≠ [])).dedup.length := by
  have hdistinct : (ofList rules).Distinct :=
    Distinct.insertAll ⟨List.nodup_nil, List.nodup_nil, List.nodup_nil⟩ rules
  have hnodup := (List.nodup_dedup ((rules.map normalizeHost).filter (· ≠ []))).map
    RulePattern.ofChars_injective
  have hperm := (List.perm_ext_iff_of_nodup hdistinct.nodup_patterns hnodup).mpr fun pattern => by
    simp only [mem_patterns, has_ofList, List.mem_map, List.mem_dedup, List.mem_filter,
      decide_eq_true_eq]
    constructor
    · rintro ⟨rule, hrule, hne, rfl⟩
      exact ⟨_, ⟨⟨rule, hrule, rfl⟩, hne⟩, rfl⟩
    · rintro ⟨_, ⟨⟨rule, hrule, rfl⟩, hne⟩, rfl⟩
      exact ⟨rule, hrule, hne, rfl⟩
  rw [← length_patterns, hperm.length_eq, List.length_map]

/-- A set means some rules: it covers just the hosts that they match, and its size is the number of
their normal forms that are not empty, each counted once. -/
structure Means (set : RuleSet) (rules : List String) : Prop where
  covers_iff : ∀ host, set.covers host = true ↔ Matched rules host
  size_eq : set.size = ((rules.map normalizeHost).filter (· ≠ [])).dedup.length

theorem means_ofList (rules : List String) : (ofList rules).Means rules :=
  ⟨covers_ofList_iff rules, size_ofList rules⟩

end RuleSet

/-! ## Lists with a file -/

/-- A text consists of these lines. Each of them but the last is ended by LF or by CRLF; the last
one is empty if the text ends with the end of a line. -/
inductive HasLines : List Char → List (List Char) → Prop where
  | last {line : List Char} (h : '\n' ∉ line) : HasLines line [line]
  | lf {line rest : List Char} {lines : List (List Char)} (h : '\n' ∉ line)
      (hrest : HasLines rest lines) : HasLines (line ++ '\n' :: rest) (line :: lines)
  | crlf {line rest : List Char} {lines : List (List Char)} (h : '\n' ∉ line)
      (hrest : HasLines rest lines) : HasLines (line ++ '\r' :: '\n' :: rest) (line :: lines)

/-- Every text consists of lines. -/
theorem exists_hasLines (cs : List Char) : ∃ lines, HasLines cs lines := by
  induction cs with
  | nil => exact ⟨_, .last List.not_mem_nil⟩
  | cons c cs ih =>
    obtain ⟨lines, hlines⟩ := ih
    by_cases hc : c = '\n'
    · have hempty : HasLines ([] ++ '\n' :: cs) ([] :: lines) := .lf List.not_mem_nil hlines
      exact ⟨_, hc ▸ hempty⟩
    · have hcons : ∀ {line : List Char}, '\n' ∉ line → '\n' ∉ c :: line := by
        intro line hline
        rw [List.mem_cons, not_or]
        exact ⟨Ne.symm hc, hline⟩
      cases hlines with
      | last h => exact ⟨_, .last (hcons h)⟩
      | lf h hrest => exact ⟨_, .lf (hcons h) hrest⟩
      | crlf h hrest => exact ⟨_, .crlf (hcons h) hrest⟩

namespace RuleList

/-- The rules that stand in some lines: those that are not blank, each behind the prefix and without
the blanks around it. -/
def rulesIn (linePrefix : String) (lines : List (List Char)) : List String :=
  ((lines.map Text.trim).filter (· ≠ [])).map fun line => linePrefix ++ String.ofList line

/-- The pieces between the line feeds are the lines, but for a carriage return. -/
theorem trim_splitAt {cs : List Char} {lines : List (List Char)} (h : HasLines cs lines) :
    (Text.splitAt '\n' cs).map Text.trim = lines.map Text.trim := by
  induction h with
  | last h => rw [Text.splitAt_of_not_mem h]
  | lf h _ ih => rw [Text.splitAt_append h, List.map_cons, List.map_cons, ih]
  | @crlf line rest lines h _ ih =>
    have hline : '\n' ∉ line ++ ['\r'] := by simp [h]
    have hsplit := Text.splitAt_append hline rest
    rw [List.append_assoc, List.singleton_append] at hsplit
    rw [hsplit, List.map_cons, List.map_cons, ih, Text.trim_concat (by decide)]

theorem fileRules_eq {tree : FileTree} {path text : String} {lines : List (List Char)}
    (hread : tree.readText path = .ok text) (hlines : HasLines text.toList lines)
    (linePrefix : String) : fileRules tree path linePrefix = .ok (rulesIn linePrefix lines) := by
  have hblank : (fun line : List Char => !line.isEmpty) = fun line => decide (line ≠ []) := by
    funext line
    cases line <;> rfl
  simp only [fileRules, hread, rulesIn, RuleList.lines, trim_splitAt hlines, hblank, List.map_map]
  rfl

/-- The texts of all rules of a list: the inline ones and then those of its file. -/
def ruleTexts (tree : FileTree) (list : RuleList) : Except ProxyError (List String) :=
  match list.file with
  | none => .ok list.rules
  | some path =>
    match fileRules tree path list.filePrefix with
    | .ok rules => .ok (list.rules ++ rules)
    | .error error => .error error

/-- A list is compiled by putting its rules into a set. -/
theorem compile_eq (tree : FileTree) (list : RuleList) :
    list.compile tree = (list.ruleTexts tree).map RuleSet.ofList := by
  unfold compile ruleTexts
  cases list.file with
  | none => rfl
  | some path =>
    cases hrules : fileRules tree path list.filePrefix with
    | error error => simp only [hrules, Except.map]
    | ok rules =>
      simp only [hrules, Except.map, RuleSet.ofList, RuleSet.insertAll, List.foldl_append]

end RuleList

/-- **A rule set means its rules**: it covers a host just when one of them names it, and its size is
the number of their distinct normal forms. The rules of a list with a file are the inline ones and
one for each line that is not blank, its text trimmed and behind the prefix; however the lines are
ended, the set is the same. -/
theorem RuleSet.means_rules :
    (∀ rules : List String, (ofList rules).Means rules) ∧
    (∀ text : String, ∃ lines, HasLines text.toList lines) ∧
    ∀ (list : RuleList) (path : String) (lines : List (List Char)), list.file = some path →
      ∃ set : RuleSet, set.Means (list.rules ++ RuleList.rulesIn list.filePrefix lines) ∧
        ∀ (tree : FileTree) (text : String), tree.readText path = .ok text →
          HasLines text.toList lines → list.compile tree = .ok set := by
  refine ⟨means_ofList, fun text => exists_hasLines text.toList, fun list path lines hfile => ?_⟩
  refine ⟨_, means_ofList _, fun tree text hread hlines => ?_⟩
  have hrules := RuleList.fileRules_eq hread hlines list.filePrefix
  simp only [RuleList.compile_eq, RuleList.ruleTexts, hfile, hrules, Except.map]

/-- Rules for a local network, two of them in a file. -/
def localNetwork : RuleList where
  file := some "lan.txt"
  rules := ["*.Example.com.", " **.LAN"]

/-- The file of the local network can be read. -/
theorem readText_lan (text : String) :
    (FileTree.mk [("lan.txt", utf8 text)]).readText "lan.txt" = .ok text := by
  have hname : (utf8 "lan.txt").length = 7 := by decide
  simp [FileTree.readText, FileTree.readBytes, FileTree.components, FileTree.walk,
    FileTree.file?, FileTree.maxNameLength, Text.splitAt, hname, decodeUtf8_utf8]

/-- The lines of that file when they are ended by CRLF. -/
theorem hasLines_lan :
    HasLines "lan\r\n\r\n  nas ".toList ["lan".toList, [], "  nas ".toList] := by
  have hcrlf : HasLines ("lan".toList ++ '\r' :: '\n' :: ([] ++ '\r' :: '\n' :: "  nas ".toList))
      ["lan".toList, [], "  nas ".toList] :=
    .crlf (by decide) (.crlf (by decide) (.last (by decide)))
  exact hcrlf

theorem localNetwork_ruleTexts :
    localNetwork.ruleTexts ⟨[("lan.txt", utf8 "lan\r\n\r\n  nas ")]⟩ =
      .ok ["*.Example.com.", " **.LAN", "**.lan", "**.nas"] := by
  have hrules := RuleList.fileRules_eq (readText_lan _) hasLines_lan localNetwork.filePrefix
  simp only [RuleList.ruleTexts, localNetwork] at hrules ⊢
  rw [hrules]
  rfl

theorem RuleSet.means_rules_localNetwork :
    ∃ set : RuleSet, set.Means ["*.Example.com.", " **.LAN", "**.lan", "**.nas"] ∧
      set.size = 3 ∧ Matched ["**.nas"] " X.nas. " ∧
      localNetwork.compile ⟨[("lan.txt", utf8 "lan\n\n  nas ")]⟩ = .ok set ∧
      localNetwork.compile ⟨[("lan.txt", utf8 "lan\r\n\r\n  nas ")]⟩ = .ok set := by
  obtain ⟨set, hmeans, hcompile⟩ :=
    means_rules.2.2 localNetwork "lan.txt" ["lan".toList, [], "  nas ".toList] rfl
  refine ⟨set, hmeans, ?_, ?_, ?_, hcompile _ _ (readText_lan _) hasLines_lan⟩
  · rw [hmeans.size_eq]
    decide
  · exact ⟨by decide, "**.nas", by simp, by decide, .anyDepth (.inr ⟨['x'], rfl⟩)⟩
  · have hlf : HasLines ("lan".toList ++ '\n' :: ([] ++ '\n' :: "  nas ".toList))
        ["lan".toList, [], "  nas ".toList] :=
      .lf (by decide) (.lf (by decide) (.last (by decide)))
    exact hcompile _ _ (readText_lan _) hlf

end SniffProxy
