import TreeLint.Event.Traversal
import TreeLint.Log.Logged
import TreeLint.Report.Diagnostic
import TreeLint.Rule.Set
import TreeLint.Tree.Build

/-!
Contract: checking one tree.

Owns: the diagnostics of a rule set for a tree, in the order of the events that cause them; the diagnostics of
a source text, sorted; and the diagnostic of a source that cannot be read.
-/

set_option autoImplicit false

namespace TreeLint

namespace RuleSet

def diagnosticFor (path : String) (tree : Tree) (id : Nat) (rule : Rule) : Diagnostic :=
  ⟨path, Location.ofNode tree id, rule.severity, rule.name, rule.message⟩

/-- The rules that an event is delivered to: those that listen to its pattern and apply to the path. -/
def receivers (set : RuleSet) (active : Array Bool) (pattern : String) : List Rule :=
  (set.listeners pattern).filterMap fun number =>
    if active[number]?.getD false then set.rules[number]? else none

def deliver (set : RuleSet) (active : Array Bool) (path : String) (tree : Tree)
    (events : List Event) : List Diagnostic :=
  events.flatMap fun event =>
    (set.receivers active event.name).map (diagnosticFor path tree event.node)

/-- The diagnostics for a tree, in the order of events. If no rule applies to the path, the tree is not walked. -/
def check (set : RuleSet) (engine : RegexEngine) (globs : GlobEngine) (path : String) (tree : Tree) :
    Attempt MatchFault (List Diagnostic) :=
  let active := set.rules.map (set.applies globs path)
  if active.contains true then
    match set.registry.run tree engine with
    | .error fault => .fail fault
    | .ok (events, memo) => ⟨Registry.records tree memo, .ok (set.deliver active path tree events)⟩
  else pure []

def loadRule : String := "Nodesel/LoadError"

def loadDiagnostic (path message : String) : Diagnostic :=
  ⟨path, .unknown, .fatal, loadRule, message⟩

/-- The diagnostics for a source text, in the order of events. -/
def checkText (set : RuleSet) (engine : RegexEngine) (globs : GlobEngine) (formats : Formats)
    (path text : String) : Attempt MatchFault (List Diagnostic) :=
  match Tree.read formats text with
  | .ok tree => set.check engine globs path tree
  | .error error => pure [loadDiagnostic path error.message]

/-- The diagnostics for a source text, in the order of a report. -/
def lint (set : RuleSet) (engine : RegexEngine) (globs : GlobEngine) (formats : Formats) (path text : String) :
    Except MatchFault (List Diagnostic) :=
  (set.checkText engine globs formats path text).result.map Diagnostic.sorted

end RuleSet

end TreeLint
