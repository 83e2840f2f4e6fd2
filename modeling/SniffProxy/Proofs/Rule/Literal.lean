import SniffProxy.Router
import SniffProxy.Proofs.Net.Spelling
import SniffProxy.Proofs.Rule.Cover

/-!
# Rules that are literals

Routing compares texts, not addresses. A rule that is the literal of an IP address covers the hosts
that are spelled like it, with capitals or without; another spelling of the same address is another
host.

* `RuleSet.covers_ofList_singleton` — what a single rule without a star covers.
* `Router.decide_spellings` — two spellings of an address take the same route in every router just
  when they differ in capitals only.
-/

namespace SniffProxy

/-! ## One rule without a star -/

theorem RulePattern.ofChars_of_star_not_mem {cs : List Char} (h : '*' ∉ cs) :
    ofChars cs = exactly cs := by
  unfold ofChars
  split
  · simp at h
  · simp at h
  · rfl

namespace RuleSet

theorem covers_ofList_singleton {rule : String} (hne : normalizeHost rule ≠ [])
    (hstar : '*' ∉ normalizeHost rule) (host : String) :
    (ofList [rule]).covers host = true ↔ normalizeHost rule = normalizeHost host := by
  have hrule : ∀ pattern,
      (ofList [rule]).Has pattern ↔ pattern = .exactly (normalizeHost rule) := by
    intro pattern
    simp [has_ofList, hne, RulePattern.ofChars_of_star_not_mem hstar]
  rw [covers_iff]
  constructor
  · rintro ⟨-, pattern, hpattern, hnames⟩
    rw [hrule] at hpattern
    subst hpattern
    exact hnames.symm
  · intro hsame
    exact ⟨hsame ▸ hne, _, (hrule _).mpr rfl, hsame.symm⟩

end RuleSet

/-! ## Two spellings -/

/-- A host text that is classified as an IP address is a literal of it. -/
theorem Address.ofLiteral?_of_ofHostPort {host : String} {port : Port} {address : Address}
    (h : ofHostPort host port = .ok address) (hip : ∀ name, address.host ≠ .domain name) :
    Host.ofLiteral? host.toList = some address.host := by
  unfold ofHostPort at h
  split at h
  · rename_i literal hliteral
    cases h
    exact hliteral
  · split at h
    · cases h
    · cases h
      exact absurd rfl (hip host)

theorem normalizeHost_of_literal {text : String} {host : Host}
    (h : Host.ofLiteral? text.toList = some host) :
    normalizeHost text = Text.asciiLower text.toList ∧ normalizeHost text ≠ [] ∧
      '*' ∉ normalizeHost text := by
  have hbare := Host.bare_of_ofLiteral? h
  rw [normalizeHost_of_bare hbare]
  refine ⟨rfl, fun hnil => ?_, Text.star_not_mem_asciiLower hbare⟩
  have hempty : text.toList = [] := List.map_eq_nil_iff.mp hnil
  rw [hempty] at h
  cases h

namespace Router

/-- A router sees no more of a host than its normal form. -/
theorem decide_congr {first second : String} (h : normalizeHost first = normalizeHost second)
    (router : Router) : router.decide first = router.decide second := by
  unfold decide RuleSet.covers
  rw [h]

theorem decide_block_iff (rules : RuleSet) (host : String) :
    (⟨rules, .empty, .empty⟩ : Router).decide host = .block ↔ rules.covers host = true := by
  cases hcovers : rules.covers host with
  | true => simp [decide, hcovers]
  | false =>
    simp only [decide, hcovers, Bool.false_eq_true, if_false, iff_false]
    split <;> nofun

/-- **A rule covers a spelling**: two spellings of an IP address take the same route in every router
just when they differ in capitals only, and a rule that is one of them covers the other just then. -/
theorem decide_spellings {first second : String} {port : Port} {address : Address}
    (hfirst : Address.ofHostPort first port = .ok address)
    (hsecond : Address.ofHostPort second port = .ok address)
    (hip : ∀ name, address.host ≠ .domain name) :
    ((∀ router : Router, router.decide first = router.decide second) ↔
      Text.asciiLower first.toList = Text.asciiLower second.toList) ∧
    ((RuleSet.ofList [first]).covers second = true ↔
      Text.asciiLower first.toList = Text.asciiLower second.toList) := by
  obtain ⟨hnormal, hne, hstar⟩ :=
    normalizeHost_of_literal (Address.ofLiteral?_of_ofHostPort hfirst hip)
  obtain ⟨hnormal', -, -⟩ := normalizeHost_of_literal (Address.ofLiteral?_of_ofHostPort hsecond hip)
  rw [← hnormal, ← hnormal']
  have hcovers := RuleSet.covers_ofList_singleton hne hstar
  refine ⟨⟨fun hsame => ?_, fun h => decide_congr h⟩, hcovers second⟩
  -- the router that blocks one spelling only
  have hblocked := (decide_block_iff _ first).mpr ((hcovers first).mpr rfl)
  rw [hsame] at hblocked
  exact (hcovers second).mp ((decide_block_iff _ second).mp hblocked)

theorem decide_spellings_capitals : (RuleSet.ofList ["FE80::A"]).covers "fe80::a" = true := by
  have hcapitals : Address.ofHostPort "FE80::A" 443 =
      .ok ⟨.ipv6 ⟨[0xfe80, 0, 0, 0, 0, 0, 0, 0xa], rfl⟩, 443⟩ := by rfl
  have hsmall : Address.ofHostPort "fe80::a" 443 =
      .ok ⟨.ipv6 ⟨[0xfe80, 0, 0, 0, 0, 0, 0, 0xa], rfl⟩, 443⟩ := by rfl
  exact (decide_spellings hcapitals hsmall (by simp)).2.mpr (by decide)

/-- A rule does not cover all the spellings of its address. -/
theorem decide_depends_on_spelling :
    ¬ ∀ (router : Router) (port : Port) (first second : String) (address : Address),
      Address.ofHostPort first port = .ok address → Address.ofHostPort second port = .ok address →
      (∀ name, address.host ≠ .domain name) → router.decide first = router.decide second := by
  intro hall
  have hsame := hall ⟨RuleSet.ofList ["::1"], .empty, .empty⟩ 443 "::1" "[::1]"
    ⟨.ipv6 ⟨[0, 0, 0, 0, 0, 0, 0, 1], rfl⟩, 443⟩ (by rfl) (by rfl) (by simp)
  revert hsame
  decide

end Router

end SniffProxy
