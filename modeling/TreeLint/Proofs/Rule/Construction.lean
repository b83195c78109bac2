import TreeLint.Proofs.Config.Loading
import TreeLint.Proofs.Rule.Delivery

/-!
Contract: which rules a run has, and when it has none.

Owns:
- the patterns of paths that can be used together, and what is blamed for those that cannot;
- the rules that are asked for: those that are enabled and allowed, and those of the command line;
- the rules that are made, which are the ones asked for unless the path patterns of one of them are refused;
- the sets that can be made of a configuration.

Does not own: which rule is blamed for a selector that does not parse.
-/

set_option autoImplicit false

namespace TreeLint

/-! ### Path patterns -/

namespace GlobEngine

variable {globs : GlobEngine} {patterns : List String}

/-- Patterns that are well formed and can be compiled together. -/
def Usable (globs : GlobEngine) (patterns : List String) : Prop :=
  (∀ pattern ∈ patterns, globs.accepts pattern = true) ∧ globs.compiles patterns = true

theorem malformed?_eq_none_iff :
    globs.malformed? patterns = none ↔ ∀ pattern ∈ patterns, globs.accepts pattern = true := by
  rw [malformed?, List.findSome?_eq_none_iff]
  refine forall₂_congr fun pattern _ => ?_
  rw [accepts]
  cases globs.check pattern with
  | ok accepted => exact iff_of_true rfl rfl
  | error reason => exact iff_of_false nofun nofun

/-- What is blamed if patterns cannot be used, and why: the first malformed one; or all of them, if they cannot be
compiled together. -/
def refused? (globs : GlobEngine) (patterns : List String) : Option (String × String) :=
  match globs.malformed? patterns with
  | some blamed => some blamed
  | none =>
      match globs.compile patterns with
      | .ok _ => none
      | .error reason => some (", ".intercalate patterns, reason)

theorem refused?_eq_none_iff : globs.refused? patterns = none ↔ globs.Usable patterns := by
  rw [refused?, Usable, ← malformed?_eq_none_iff, compiles]
  cases globs.malformed? patterns with
  | some blamed => exact iff_of_false nofun fun usable => nomatch usable.1
  | none =>
      cases globs.compile patterns with
      | ok compiled => exact iff_of_true rfl ⟨rfl, rfl⟩
      | error reason => exact iff_of_false nofun fun usable => nomatch usable.2

end GlobEngine

theorem Rule.withExcludes_eq (globs : GlobEngine) (rule : Rule) (patterns : List String) :
    rule.withExcludes globs patterns =
      match globs.refused? patterns with
      | some (blamed, reason) => .error (.exclude rule.name blamed reason)
      | none => .ok ⟨rule.name, rule.selectors, rule.message, rule.severity, patterns⟩ := by
  rw [withExcludes, GlobEngine.refused?]
  cases globs.malformed? patterns with
  | some blamed => rfl
  | none => cases globs.compile patterns <;> rfl

/-! ### The rules that are asked for -/

def RuleConfig.toRule (name : String) (settings : RuleConfig) : Rule :=
  ⟨name, settings.selectors, settings.message.getD (Rule.defaultMessage settings.selectors),
    settings.severity.getD .warning, settings.excludes⟩

/-- The settings of the rules that are enabled and allowed. -/
def RuleFilter.wanted (filter : RuleFilter) (entries : List (String × RuleConfig)) :
    List (String × RuleConfig) :=
  entries.filter fun entry => entry.2.enabled && filter.allows entry.1

namespace RuleSet

variable {engine : RegexEngine} {globs : GlobEngine} {config : Config} {adhoc : List String}
  {filter : RuleFilter}

/-- The rules that a configuration, a command line and a filter ask for. -/
def asked (config : Config) (adhoc : List String) (filter : RuleFilter) : List Rule :=
  ((filter.wanted config.rules).map fun entry => entry.2.toRule entry.1)
    ++ (if filter.allows Rule.adhocName then adhoc.map Rule.adhoc else [])

theorem ruleOfConfig_eq (globs : GlobEngine) (name : String) {settings : RuleConfig}
    (someSelector : settings.selectors ≠ []) :
    ruleOfConfig globs name settings =
      match globs.refused? settings.excludes with
      | some (blamed, reason) => .error (.exclude name blamed reason)
      | none => .ok (settings.toRule name) := by
  have notEmpty : settings.selectors.isEmpty = false := by simpa using someSelector
  simp only [ruleOfConfig, Rule.make, notEmpty, Bool.false_eq_true, if_false]
  exact Rule.withExcludes_eq ..

/-- The error for the first rule whose path patterns cannot be used. -/
def refusal? (globs : GlobEngine) (entries : List (String × RuleConfig)) : Option RuleError :=
  entries.findSome? fun entry =>
    (globs.refused? entry.2.excludes).map fun (blamed, reason) => .exclude entry.1 blamed reason

theorem refusal?_eq_none_iff {entries : List (String × RuleConfig)} :
    refusal? globs entries = none ↔ ∀ entry ∈ entries, globs.Usable entry.2.excludes := by
  simp only [refusal?, List.findSome?_eq_none_iff, Option.map_eq_none_iff, GlobEngine.refused?_eq_none_iff]

/-- The rules of a configuration are the wanted ones, unless one of them is refused for its path patterns. -/
theorem configuredRules_eq (globs : GlobEngine) (filter : RuleFilter) {entries : List (String × RuleConfig)}
    (selective : ∀ entry ∈ entries, entry.2.selectors ≠ []) :
    configuredRules globs filter entries =
      match refusal? globs (filter.wanted entries) with
      | some error => .error error
      | none => .ok ((filter.wanted entries).map fun entry => entry.2.toRule entry.1) := by
  induction entries with
  | nil => rfl
  | cons entry rest inductionHypothesis =>
      obtain ⟨name, settings⟩ := entry
      rw [List.forall_mem_cons] at selective
      have tail := inductionHypothesis selective.2
      rw [configuredRules, RuleFilter.wanted, List.filter_cons]
      split
      · rw [ruleOfConfig_eq globs name selective.1, refusal?, List.findSome?_cons]
        cases globs.refused? settings.excludes with
        | some blamed => rfl
        | none =>
            rw [tail, refusal?, RuleFilter.wanted]
            cases List.findSome? _ _ <;> rfl
      · exact tail

/-- The set of a configuration is made of the rules that are asked for, unless one of them is refused for its
path patterns. -/
theorem ofConfig_eq (engine : RegexEngine) (globs : GlobEngine) (adhoc : List String) (filter : RuleFilter)
    (selective : config.Selective) :
    ofConfig engine globs config adhoc filter =
      match refusal? globs (filter.wanted config.rules) with
      | some error => .error error
      | none => (ofRules engine (asked config adhoc filter)).map (·.withBase (configDir config)) := by
  rw [ofConfig, rulesFor, configuredRules_eq globs filter selective]
  cases refusal? globs (filter.wanted config.rules) with
  | some error => rfl
  | none =>
      change Except.bind (ofRules engine (asked config adhoc filter)) _ = Except.map _ _
      cases ofRules engine (asked config adhoc filter) with
      | error error => rfl
      | ok set => cases configDir config <;> rfl

theorem eq_of_ruleOfConfig {name : String} {settings : RuleConfig} {rule : Rule}
    (made : ruleOfConfig globs name settings = .ok rule) : rule = settings.toRule name := by
  by_cases noSelector : settings.selectors = []
  · rw [ruleOfConfig, Rule.make, noSelector] at made
    contradiction
  · rw [ruleOfConfig_eq globs name noSelector] at made
    split at made
    · contradiction
    · exact (Except.ok.inj made).symm

theorem eq_of_configuredRules {entries : List (String × RuleConfig)} {rules : List Rule}
    (made : configuredRules globs filter entries = .ok rules) :
    rules = (filter.wanted entries).map fun entry => entry.2.toRule entry.1 := by
  induction entries generalizing rules with
  | nil => exact (Except.ok.inj made).symm
  | cons entry rest inductionHypothesis =>
      obtain ⟨name, settings⟩ := entry
      rw [configuredRules] at made
      rw [RuleFilter.wanted, List.filter_cons]
      split at made
      · rename_i isWanted
        rw [if_pos isWanted]
        cases isFirst : ruleOfConfig globs name settings with
        | error error =>
            rw [isFirst] at made
            contradiction
        | ok first =>
            cases isOthers : configuredRules globs filter rest with
            | error error =>
                rw [isFirst, isOthers] at made
                contradiction
            | ok others =>
                rw [isFirst, isOthers] at made
                rw [← Except.ok.inj made, eq_of_ruleOfConfig isFirst, inductionHypothesis isOthers]
                rfl
      · rename_i notWanted
        rw [if_neg notWanted]
        exact inductionHypothesis made

/-- A set that was made of a configuration is made of the rules that are asked for. -/
theorem exists_ofRules_of_ofConfig {set : RuleSet}
    (isSet : ofConfig engine globs config adhoc filter = .ok set) :
    ∃ bare, ofRules engine (asked config adhoc filter) = .ok bare ∧ set = bare.withBase (configDir config) := by
  rw [ofConfig, rulesFor] at isSet
  cases made : configuredRules globs filter config.rules with
  | error error =>
      rw [made] at isSet
      contradiction
  | ok rules =>
      rw [made, eq_of_configuredRules made] at isSet
      change Except.bind (ofRules engine (asked config adhoc filter)) _ = _ at isSet
      cases isBare : ofRules engine (asked config adhoc filter) with
      | error error =>
          rw [isBare] at isSet
          contradiction
      | ok bare =>
          rw [isBare] at isSet
          refine ⟨bare, rfl, ?_⟩
          cases base : configDir config with
          | none =>
              rw [base] at isSet
              exact (Except.ok.inj isSet).symm
          | some directory =>
              rw [base] at isSet
              exact (Except.ok.inj isSet).symm

/-- A set can be made of a configuration exactly if the path patterns of all wanted rules can be used, and all
selectors of the rules asked for can be parsed. -/
theorem exists_ofConfig_iff (selective : config.Selective) :
    (∃ set, ofConfig engine globs config adhoc filter = .ok set) ↔
      (∀ entry ∈ filter.wanted config.rules, globs.Usable entry.2.excludes) ∧
        ∀ rule ∈ asked config adhoc filter, ∀ pattern ∈ rule.selectors,
          (Pattern.selector? engine pattern).isSome = true := by
  rw [← refusal?_eq_none_iff, ← exists_ofRules_iff]
  constructor
  · rintro ⟨set, isSet⟩
    obtain ⟨bare, isBare, _⟩ := exists_ofRules_of_ofConfig isSet
    rw [ofConfig_eq engine globs adhoc filter selective] at isSet
    split at isSet
    · contradiction
    · rename_i notRefused
      exact ⟨notRefused, bare, isBare⟩
  · rintro ⟨notRefused, bare, isBare⟩
    refine ⟨bare.withBase (configDir config), ?_⟩
    rw [ofConfig_eq engine globs adhoc filter selective, notRefused, isBare]
    rfl

end RuleSet

end TreeLint
