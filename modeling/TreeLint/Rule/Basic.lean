import TreeLint.Error.Cause
import TreeLint.Event.Registration
import TreeLint.Glob.Engine
import TreeLint.Report.Severity

/-!
Contract: single rules.

Owns: rules, which are a name, selectors, a message and a severity, and patterns for the paths that a rule
does not apply to; the errors of rules; and the rule for a selector given on the command line.
-/

set_option autoImplicit false

namespace TreeLint

inductive RuleError where
  | noSelectors (rule : String)
  /-- A selector of the rule does not parse. -/
  | selector (rule : String) (cause : RegistrationError)
  /-- A path pattern of the rule is malformed, or all of them together cannot be compiled. -/
  | exclude (rule pattern reason : String)
  deriving DecidableEq, Repr

namespace RuleError

def message : RuleError → String
  | .noSelectors rule => "rule \x60" ++ rule ++ "\x60 has no selectors"
  | .selector rule cause => "rule \x60" ++ rule ++ "\x60: " ++ cause.message
  | .exclude rule pattern reason =>
      "rule \x60" ++ rule ++ "\x60: invalid exclude pattern \x60" ++ pattern ++ "\x60: " ++ reason

/-- The error and its causes, the outermost first. -/
def chain (error : RuleError) : List Cause :=
  ⟨.rule, error.message⟩ ::
    match error with
    | .noSelectors _ => []
    | .selector _ cause => [⟨.registration, cause.message⟩, ⟨.selector, cause.cause.message⟩]
    | .exclude _ _ reason => [⟨.pattern, reason⟩]

end RuleError

structure Rule where
  name : String
  selectors : List String
  message : String
  severity : Severity
  /-- The patterns of the paths that the rule does not apply to. -/
  excludes : List String
  deriving DecidableEq, Repr

namespace Rule

/-- The message of a rule that brings none. -/
def defaultMessage (selectors : List String) : String :=
  "matches \x60" ++ "\x60, \x60".intercalate selectors ++ "\x60"

def make (name : String) (selectors : List String) (message : String) (severity : Severity) :
    Except RuleError Rule :=
  if selectors.isEmpty then .error (.noSelectors name)
  else .ok ⟨name, selectors, message, severity, []⟩

/-- The rule with other path patterns. The first malformed pattern is refused; if all are well formed but
cannot be compiled together, all of them are. -/
def withExcludes (globs : GlobEngine) (rule : Rule) (patterns : List String) :
    Except RuleError Rule :=
  match globs.malformed? patterns with
  | some (pattern, reason) => .error (.exclude rule.name pattern reason)
  | none =>
      match globs.compile patterns with
      | .ok _ => .ok ⟨rule.name, rule.selectors, rule.message, rule.severity, patterns⟩
      | .error reason => .error (.exclude rule.name (", ".intercalate patterns) reason)

def adhocName : String := "Adhoc/Selector"

def adhoc (pattern : String) : Rule :=
  ⟨adhocName, [pattern], defaultMessage [pattern], .warning, []⟩

def withoutDotSlash (path : String) : String :=
  match path.toList with
  | '.' :: '/' :: rest => String.ofList rest
  | _ => path

def isExcluded (globs : GlobEngine) (rule : Rule) (path : String) : Bool :=
  globs.anyCovers rule.excludes (withoutDotSlash path)

end Rule

end TreeLint
