import SniffProxy.Rule.Source

/-!
# What rules cover

A rule set looks up the text after each dot of a host. That comes to the same as asking every rule
for itself whether it names the host, and a rule that was added names its own text at least.

* `RulePattern.Names` — the hosts that a rule names.
* `RuleSet.covers_iff` — a set covers just what one of its rules names.
* `RuleSet.has_insertAll`, `RuleList.has_of_compile` — the rules of a set.
* `RuleSet.covers_own` — a set covers the text of each rule that was put into it.
-/

namespace SniffProxy

/-! ## Single rules -/

namespace RulePattern

/-- The hosts in normal form that a rule names. -/
def Names : RulePattern → List Char → Prop
  | exactly name, host => host = name
  | anyDepth suffix, host => host = suffix ∨ ∃ front, host = front ++ '.' :: suffix
  | oneLabel suffix, host => ∃ label, '.' ∉ label ∧ host = label ++ '.' :: suffix

/-- **A rule names its own text**, its stars included. -/
theorem names_ofChars (cs : List Char) : (ofChars cs).Names cs := by
  unfold ofChars
  split
  · exact .inr ⟨['*', '*'], rfl⟩
  · exact ⟨['*'], by decide, rfl⟩
  · rfl

end RulePattern

namespace RuleSet

/-! ## Looking up what is behind the dots -/

/-- The text of a rule behind its marker belongs to the set. -/
def Has (set : RuleSet) : RulePattern → Prop
  | .exactly host => host ∈ set.exact
  | .anyDepth suffix => suffix ∈ set.anyDepth
  | .oneLabel suffix => suffix ∈ set.oneLabel

/-- The dots of a text are its first character, if that is one, and those behind it. -/
theorem behind_dot_cons {c : Char} {rest : List Char} {P : List Char → Prop} :
    (∃ front suffix, c :: rest = front ++ '.' :: suffix ∧ P suffix) ↔
      (c = '.' ∧ P rest) ∨ ∃ front suffix, rest = front ++ '.' :: suffix ∧ P suffix := by
  constructor
  · rintro ⟨front, suffix, heq, hP⟩
    cases front with
    | nil =>
      cases heq
      exact .inl ⟨rfl, hP⟩
    | cons d front =>
      cases heq
      exact .inr ⟨front, suffix, rfl, hP⟩
  · rintro (⟨rfl, hP⟩ | ⟨front, suffix, rfl, hP⟩)
    · exact ⟨[], rest, rfl, hP⟩
    · exact ⟨c :: front, suffix, rfl, hP⟩

/-- The first dot of a text is its first character, or else the first one behind it. -/
theorem behind_first_dot_cons {c : Char} {rest : List Char} {P : List Char → Prop} :
    (∃ label suffix, '.' ∉ label ∧ c :: rest = label ++ '.' :: suffix ∧ P suffix) ↔
      (c = '.' ∧ P rest) ∨
        (c ≠ '.' ∧ ∃ label suffix, '.' ∉ label ∧ rest = label ++ '.' :: suffix ∧ P suffix) := by
  constructor
  · rintro ⟨label, suffix, hlabel, heq, hP⟩
    cases label with
    | nil =>
      cases heq
      exact .inl ⟨rfl, hP⟩
    | cons d label =>
      cases heq
      rw [List.mem_cons, not_or] at hlabel
      exact .inr ⟨Ne.symm hlabel.1, label, suffix, hlabel.2, rfl, hP⟩
  · rintro (⟨rfl, hP⟩ | ⟨hc, label, suffix, hlabel, rfl, hP⟩)
    · exact ⟨[], rest, List.not_mem_nil, rfl, hP⟩
    · refine ⟨c :: label, suffix, ?_, rfl, hP⟩
      rw [List.mem_cons, not_or]
      exact ⟨Ne.symm hc, hlabel⟩

/-- The look-up finds the suffixes behind all dots, and those behind the first dot. -/
theorem coversBelow_iff (set : RuleSet) {firstDot : Bool} {cs : List Char} :
    set.coversBelow firstDot cs = true ↔
      (∃ front suffix, cs = front ++ '.' :: suffix ∧ suffix ∈ set.anyDepth) ∨
      (firstDot = true ∧
        ∃ label suffix, '.' ∉ label ∧ cs = label ++ '.' :: suffix ∧ suffix ∈ set.oneLabel) := by
  induction cs generalizing firstDot with
  | nil => simp [coversBelow]
  | cons c rest ih =>
    rw [behind_dot_cons, behind_first_dot_cons, coversBelow]
    by_cases hc : c = '.'
    · simp only [hc, if_true, Bool.or_eq_true, Bool.and_eq_true, decide_eq_true_eq, ih,
        Bool.false_eq_true, false_and, or_false, true_and, ne_eq, not_true_eq_false]
      exact or_right_comm
    · rw [if_neg hc, ih]
      simp only [hc, false_and, false_or, ne_eq, not_false_eq_true, true_and]

theorem coversNormal_iff (set : RuleSet) {host : List Char} :
    set.coversNormal host = true ↔
      host ≠ [] ∧ ∃ pattern, set.Has pattern ∧ pattern.Names host := by
  unfold coversNormal
  split
  · rename_i hnil
    simp [hnil]
  · rename_i hne
    simp only [Bool.or_eq_true, decide_eq_true_eq, coversBelow_iff, true_and]
    refine ⟨fun h => ⟨hne, ?_⟩, ?_⟩
    · rcases h with (hexact | hany) | ⟨front, suffix, rfl, hany⟩ | ⟨label, suffix, hlabel, rfl, hone⟩
      · exact ⟨.exactly host, hexact, rfl⟩
      · exact ⟨.anyDepth host, hany, .inl rfl⟩
      · exact ⟨.anyDepth suffix, hany, .inr ⟨front, rfl⟩⟩
      · exact ⟨.oneLabel suffix, hone, label, hlabel, rfl⟩
    · rintro ⟨-, pattern, hhas, hnames⟩
      cases pattern with
      | exactly name =>
        obtain rfl : host = name := hnames
        exact .inl (.inl hhas)
      | anyDepth suffix =>
        obtain rfl | ⟨front, rfl⟩ := hnames
        · exact .inl (.inr hhas)
        · exact .inr (.inl ⟨front, suffix, rfl, hhas⟩)
      | oneLabel suffix =>
        obtain ⟨label, hlabel, rfl⟩ := hnames
        exact .inr (.inr ⟨label, suffix, hlabel, rfl, hhas⟩)

/-- **A set covers what one of its rules names**, and nothing else. -/
theorem covers_iff (set : RuleSet) (host : String) :
    set.covers host = true ↔
      normalizeHost host ≠ [] ∧
        ∃ pattern, set.Has pattern ∧ pattern.Names (normalizeHost host) :=
  set.coversNormal_iff

/-! ## The rules of a set -/

theorem has_insertPattern (set : RuleSet) (added pattern : RulePattern) :
    (set.insertPattern added).Has pattern ↔ pattern = added ∨ set.Has pattern := by
  cases added <;> cases pattern <;> simp [insertPattern, Has]

theorem has_insert (set : RuleSet) (rule : String) (pattern : RulePattern) :
    (set.insert rule).Has pattern ↔
      (normalizeHost rule ≠ [] ∧ pattern = .ofChars (normalizeHost rule)) ∨ set.Has pattern := by
  unfold insert
  dsimp only
  split
  · rename_i hnil
    simp [hnil]
  · rename_i hne
    simp [has_insertPattern, hne]

/-- The rules of a set are those that were put into it. -/
theorem has_insertAll (set : RuleSet) (rules : List String) (pattern : RulePattern) :
    (set.insertAll rules).Has pattern ↔
      (∃ rule ∈ rules, normalizeHost rule ≠ [] ∧ pattern = .ofChars (normalizeHost rule)) ∨
        set.Has pattern := by
  induction rules generalizing set with
  | nil => simp [insertAll]
  | cons rule rules ih =>
    have hfold : set.insertAll (rule :: rules) = (set.insert rule).insertAll rules := rfl
    rw [hfold, ih, has_insert]
    simp only [List.mem_cons, exists_eq_or_imp]
    rw [or_assoc, or_left_comm]

theorem not_has_empty (pattern : RulePattern) : ¬ empty.Has pattern := by
  cases pattern <;> exact List.not_mem_nil

theorem has_ofList (rules : List String) (pattern : RulePattern) :
    (ofList rules).Has pattern ↔
      ∃ rule ∈ rules, normalizeHost rule ≠ [] ∧ pattern = .ofChars (normalizeHost rule) := by
  rw [ofList, has_insertAll]
  simp [not_has_empty]

/-- **A set covers the text of each of its rules**, whatever the rule says besides. -/
theorem covers_own {set : RuleSet} {rule host : String}
    (hrule : set.Has (.ofChars (normalizeHost rule))) (hne : normalizeHost rule ≠ [])
    (hsame : normalizeHost host = normalizeHost rule) : set.covers host = true := by
  rw [covers_iff, hsame]
  exact ⟨hne, _, hrule, RulePattern.names_ofChars _⟩

/-- A rule for a host and everything below it covers just that. -/
theorem covers_below {set : RuleSet} {suffix : List Char} {host : String}
    (hrule : set.Has (.anyDepth suffix)) (hne : suffix ≠ [])
    (hhost : (RulePattern.anyDepth suffix).Names (normalizeHost host)) :
    set.covers host = true := by
  refine (set.covers_iff host).mpr ⟨?_, _, hrule, hhost⟩
  obtain heq | ⟨front, heq⟩ := hhost
  · rw [heq]
    exact hne
  · rw [heq]
    exact List.append_ne_nil_of_right_ne_nil _ (List.cons_ne_nil _ _)

end RuleSet

/-- A compiled list has the rules that were given inline. -/
theorem RuleList.has_of_compile {tree : FileTree} {list : RuleList} {set : RuleSet}
    (h : list.compile tree = .ok set) {rule : String} (hrule : rule ∈ list.rules)
    (hne : normalizeHost rule ≠ []) : set.Has (.ofChars (normalizeHost rule)) := by
  have hinline : (RuleSet.ofList list.rules).Has (.ofChars (normalizeHost rule)) :=
    (RuleSet.has_ofList _ _).mpr ⟨rule, hrule, hne, rfl⟩
  unfold compile at h
  split at h
  · cases h
    exact hinline
  · split at h
    · cases h
      exact (RuleSet.has_insertAll _ _ _).mpr (.inr hinline)
    · cases h

end SniffProxy
