import TreeLint.Report.Format
import TreeLint.Rule.Filter

/-!
Contract: what a run is asked to do.

Owns: the options of a run as they were given, and what stands for those that were not.
-/

set_option autoImplicit false

namespace TreeLint

structure Options where
  /-- The files and directories to inspect. -/
  paths : List String
  /-- The configuration file. -/
  config : Option String
  format : Option ReportFormat
  /-- Selectors to report besides the rules of the configuration. -/
  selectors : List String
  /-- The only wanted rules. -/
  only : List String
  /-- The rules that are not wanted. -/
  except : List String
  /-- Whether everything but traces is logged. -/
  debug : Bool
  /-- Whether the names of the rules are listed, and nothing is inspected. -/
  listRules : Bool
  /-- Whether the registered selectors are described, and nothing is inspected. -/
  explain : Bool
  /-- Whether the first file with diagnostics is the last one inspected. -/
  failFast : Bool
  deriving DecidableEq, Repr

namespace Options

def unset : Options := ⟨[], none, none, [], [], [], false, false, false, false⟩

/-- The paths to inspect; without any, the working directory. -/
def targets (options : Options) : List String :=
  if options.paths.isEmpty then ["."] else options.paths

def reportFormat (options : Options) : ReportFormat := options.format.getD .text

def filter (options : Options) : RuleFilter := ⟨options.only, options.except⟩

end Options

end TreeLint
