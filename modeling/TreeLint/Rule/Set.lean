import TreeLint.Config.Basic
import TreeLint.Event.Registry
import TreeLint.Path.Basic
import TreeLint.Rule.Basic
import TreeLint.Rule.Filter

/-!
Contract: sets of rules that are checked together.

Owns: rule sets, in which all selectors of all rules are registered once; the index of the rules that listen to a
pattern, each once; the set of the rules that a configuration enables, a filter allows, and a command line adds; and
which rules apply to a path.
-/

set_option autoImplicit false

namespace TreeLint

structure RuleSet where
  rules : Array Rule
  registry : Registry
  /-- The numbers of the rules that listen to a pattern, ascending. -/
  byPattern : Std.HashMap String (List Nat)
  /-- The directory that path patterns are relative to. -/
  baseDir : Option String

namespace RuleSet

def patternsOf (rules : List Rule) : List String := rules.flatMap Rule.selectors

/-- The name of the first rule with a pattern. -/
def ownerOf (rules : List Rule) (pattern : String) : String :=
  ((rules.find? fun rule => rule.selectors.contains pattern).map Rule.name).getD ""

/-- The index of listeners with a rule under one more pattern, unless it stands there already. -/
def subscribe (number : Nat) (byPattern : Std.HashMap String (List Nat)) (pattern : String) :
    Std.HashMap String (List Nat) :=
  let listening := byPattern.getD pattern []
  if listening.contains number then byPattern else byPattern.insert pattern (listening ++ [number])

def enlist (byPattern : Std.HashMap String (List Nat)) : Rule × Nat → Std.HashMap String (List Nat)
  | (rule, number) => rule.selectors.foldl (subscribe number) byPattern

def listenersOf (rules : List Rule) : Std.HashMap String (List Nat) := rules.zipIdx.foldl enlist ∅

/-- The set of some rules. A selector that does not parse is blamed on the first rule that has it. -/
def ofRules (engine : RegexEngine) (rules : List Rule) : Except RuleError RuleSet :=
  match Registry.ofPatterns engine (patternsOf rules) with
  | .ok registry => .ok ⟨rules.toArray, registry, listenersOf rules, none⟩
  | .error cause => .error (.selector (ownerOf rules cause.pattern) cause)

def withBaseDir (set : RuleSet) (directory : String) : RuleSet :=
  ⟨set.rules, set.registry, set.byPattern, some directory⟩

def ruleOfConfig (globs : GlobEngine) (name : String) (config : RuleConfig) :
    Except RuleError Rule := do
  let message := config.message.getD (Rule.defaultMessage config.selectors)
  let rule ← Rule.make name config.selectors message (config.severity.getD .warning)
  rule.withExcludes globs config.excludes

def configuredRules (globs : GlobEngine) (filter : RuleFilter) :
    List (String × RuleConfig) → Except RuleError (List Rule)
  | [] => .ok []
  | (name, config) :: rest =>
      if config.enabled && filter.allows name then do
        let rule ← ruleOfConfig globs name config
        return rule :: (← configuredRules globs filter rest)
      else configuredRules globs filter rest

/-- The rules of a run: those of the configuration that are enabled and allowed, then one for each selector
given on the command line. -/
def rulesFor (globs : GlobEngine) (config : Config) (adhoc : List String) (filter : RuleFilter) :
    Except RuleError (List Rule) := do
  let configured ← configuredRules globs filter config.rules
  return configured ++ (if filter.allows Rule.adhocName then adhoc.map Rule.adhoc else [])

/-- The directory of the file that a configuration was read from. -/
def configDir (config : Config) : Option String :=
  config.path.bind fun path => ((Path.ofString path).parent?).map Path.text

def ofConfig (engine : RegexEngine) (globs : GlobEngine) (config : Config) (adhoc : List String)
    (filter : RuleFilter) : Except RuleError RuleSet := do
  let set ← ofRules engine (← rulesFor globs config adhoc filter)
  match configDir config with
  | some directory => return set.withBaseDir directory
  | none => return set

def size (set : RuleSet) : Nat := set.rules.size

def isEmpty (set : RuleSet) : Bool := set.rules.isEmpty

/-- The numbers of the rules that listen to a pattern, ascending. -/
def listeners (set : RuleSet) (pattern : String) : List Nat := set.byPattern.getD pattern []

/-- The path that path patterns are compared with: relative to the base directory if it lies below, and as given
otherwise. -/
def comparedPath (set : RuleSet) (path : String) : String :=
  let relative? := set.baseDir.bind fun base => (Path.ofString path).relativeTo? (Path.ofString base)
  match relative? with
  | some relative => relative.text
  | none => path

def applies (set : RuleSet) (globs : GlobEngine) (path : String) (rule : Rule) : Bool :=
  !rule.isExcluded globs (set.comparedPath path)

end RuleSet

end TreeLint
