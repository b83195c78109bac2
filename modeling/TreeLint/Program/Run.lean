import TreeLint.Config.Load
import TreeLint.Files.Discovery
import TreeLint.Program.Inspection
import TreeLint.Program.Options

/-!
Contract: a run.

Owns:
- why runs fail, and the status that tells the kinds of failure apart;
- the steps of a run: the configuration, the rules, the files, and the report on them. A run may end early with
  a list of the rules or a description of their selectors.
-/

set_option autoImplicit false

namespace TreeLint

inductive ExitStatus where
  /-- Nothing was found. -/
  | clean
  | offenses
  /-- Selectors or the configuration are at fault. -/
  | invalidInput
  /-- Something else went wrong. -/
  | failure
  deriving DecidableEq, Repr

def ExitStatus.code : ExitStatus → Nat
  | .clean => 0
  | .offenses => 1
  | .invalidInput => 2
  | .failure => 3

inductive RunError where
  | config (cause : LoadError)
  | rules (cause : RuleError)
  | discovery (cause : DiscoveryError)
  | matching (fault : MatchFault)
  deriving DecidableEq, Repr

namespace RunError

def chain : RunError → List Cause
  | .config cause => cause.chain
  | .rules cause => cause.chain
  | .discovery cause => cause.chain
  | .matching fault => [⟨.comparison, fault.message⟩]

/-- The words of the error and of its causes in one line. -/
def message (error : RunError) : String := Cause.line error.chain

/-- The status of a failed run. The fault lies with the input if there is one such fault among the causes. -/
def status (error : RunError) : ExitStatus :=
  if error.chain.any fun cause => cause.kind.isInput then .invalidInput else .failure

end RunError

structure RunResult where
  status : ExitStatus
  output : String
  deriving DecidableEq, Repr

namespace Run

/-- The directory in which a configuration is looked for: the first target, or the directory that it lies in if
it is a file. -/
def targetDirectory (files : FileSystem) (targets : List String) : Option String :=
  targets.head?.map fun first =>
    if files.isFile first then (((Path.ofString first).parent?).map Path.text).getD first else first

def configRecord (config : Config) : LogRecord :=
  match config.path with
  | some path => ⟨.debug, .main, "using config", [("path", .plain path)]⟩
  | none => ⟨.debug, .main, "no config file found", []⟩

def noRulesRecord : LogRecord :=
  ⟨.warn, .main, "no rules enabled; pass --selector or add Rules to .nodesel.yml", []⟩

def startRecord (found : List String) (set : RuleSet) : LogRecord :=
  ⟨.debug, .main, "starting run",
    [("files", .number found.length), ("rules", .number set.size),
      ("selectors", .number set.registry.size)]⟩

/-- The names of rules, each once and on a line of its own. -/
def listing (set : RuleSet) : String :=
  String.join ((set.rules.toList.map Rule.name).eraseDups.map fun name => name ++ "\n")

def prepare (engine : RegexEngine) (globs : GlobEngine) (formats : Formats) (files : FileSystem)
    (options : Options) : Attempt RunError (Config × RuleSet) := do
  let target := targetDirectory files options.targets
  let config ← (Config.load formats files options.config target).mapError .config
  .log (configRecord config)
  let made := RuleSet.ofConfig engine globs config options.selectors options.filter
  let set ← .ofExcept (made.mapError .rules)
  .log set.registry.record
  return (config, set)

def inspect (engine : RegexEngine) (globs : GlobEngine) (formats : Formats) (files : FileSystem)
    (options : Options) (config : Config) (set : RuleSet) : Attempt RunError RunResult := do
  if set.isEmpty then .log noRulesRecord
  let found ← .ofExcept ((Discovery.discover files config.excludes options.targets).mapError .discovery)
  .log (Discovery.record found)
  .log (startRecord found set)
  let report ← (Inspection.report set engine globs formats files options.failFast found).mapError .matching
  let status : ExitStatus := if report.diagnostics.isEmpty then .clean else .offenses
  return ⟨status, report.render options.reportFormat⟩

def perform (engine : RegexEngine) (globs : GlobEngine) (formats : Formats) (files : FileSystem)
    (options : Options) : Attempt RunError RunResult := do
  let (config, set) ← prepare engine globs formats files options
  if options.listRules then return ⟨.clean, listing set⟩
  else if options.explain then return ⟨.clean, set.registry.explain⟩
  else inspect engine globs formats files options config set

end Run

end TreeLint
