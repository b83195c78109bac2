/-!
Contract: how grave an offense is.

Owns: the four severities, their order, their letters, and the words that name them.
-/

set_option autoImplicit false

namespace TreeLint

/-- How grave an offense is, from the least to the most. -/
inductive Severity where
  | info
  | warning
  | error
  | fatal
  deriving DecidableEq, Repr

namespace Severity

def letter : Severity → Char
  | .info => 'I'
  | .warning => 'W'
  | .error => 'E'
  | .fatal => 'F'

def rank : Severity → Nat
  | .info => 0
  | .warning => 1
  | .error => 2
  | .fatal => 3

/-- The severity that a word names, in any case. No letter outside ASCII has a lower case among the letters of
these words, so lowering ASCII letters is enough. -/
def read? (word : String) : Option Severity :=
  match String.ofList (word.toList.map Char.toLower) with
  | "info" => some .info
  | "warning" => some .warning
  | "error" => some .error
  | "fatal" => some .fatal
  | _ => none

end Severity

end TreeLint
