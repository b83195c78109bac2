import TreeLint.Report.Severity

/-!
Contract: what a configuration says.

Owns: the settings of rules in the order of the file, the patterns of paths that are left out of every search,
and the place that the configuration was read from.
-/

set_option autoImplicit false

namespace TreeLint

structure RuleConfig where
  selectors : List String
  message : Option String
  severity : Option Severity
  enabled : Bool
  excludes : List String
  deriving DecidableEq, Repr

def RuleConfig.unset : RuleConfig := ⟨[], none, none, true, []⟩

structure Config where
  /-- The file that it was read from. -/
  path : Option String
  /-- The rules by name, in the order of the file. -/
  rules : List (String × RuleConfig)
  /-- The patterns of paths that are left out of every search. -/
  excludes : List String
  deriving DecidableEq, Repr

def Config.empty : Config := ⟨none, [], []⟩

end TreeLint
