/-!
Contract: errors as chains of causes.

Owns: `Cause`, one error of a chain, with its kind and its words; which kinds are faults of what a run is given; and
the line that shows a chain.
-/

set_option autoImplicit false

namespace TreeLint

inductive CauseKind where
  /-- Words that are put before an error on its way, or that stand alone. -/
  | context
  | rule
  | registration
  | selector
  | config
  /-- A text that is no document. -/
  | document
  /-- A path pattern of a rule. -/
  | pattern
  /-- A search for files. -/
  | search
  | system
  | comparison
  deriving DecidableEq, Repr

/-- Whether an error of the kind is a fault of a configuration or of selectors. -/
def CauseKind.isInput : CauseKind → Bool
  | .rule | .config | .document => true
  | _ => false

structure Cause where
  kind : CauseKind
  message : String
  deriving DecidableEq, Repr

/-- The words of a chain in one line, the outermost first. -/
def Cause.line (chain : List Cause) : String := ": ".intercalate (chain.map Cause.message)

end TreeLint
