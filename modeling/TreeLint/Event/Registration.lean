import TreeLint.Selector.Parser
import TreeLint.Selector.TypeHint

/-!
Contract: patterns as they are registered.

Owns: the marker `:exit`, by which a pattern fires when a node is left; the error of a pattern whose selector
does not parse; and a registered pattern with its selector and its type hint.
-/

set_option autoImplicit false

namespace TreeLint

/-- The marker of patterns that fire when a node is left. -/
def exitMarker : String := ":exit"

/-- The selector text of a pattern, and whether the pattern fires when a node is left. -/
def splitExit (pattern : String) : String × Bool :=
  let letters := pattern.toList
  let marker := exitMarker.toList
  if marker.isSuffixOf letters then
    (String.ofList (letters.take (letters.length - marker.length)), true)
  else (pattern, false)

/-- A pattern whose selector does not parse. -/
structure RegistrationError where
  pattern : String
  cause : SelectorError
  deriving DecidableEq, Repr

def RegistrationError.message (error : RegistrationError) : String :=
  "invalid selector \x60" ++ error.pattern ++ "\x60: " ++ error.cause.message

structure Registration where
  /-- The pattern as it was registered, which is the name of its events. -/
  raw : String
  selector : Selector
  onLeave : Bool
  hint : TypeHint
  deriving Repr

def Registration.ofPattern (engine : RegexEngine) (pattern : String) :
    Except RegistrationError Registration :=
  let (text, onLeave) := splitExit pattern
  match Selector.parse engine text with
  | .ok selector => .ok ⟨pattern, selector, onLeave, selector.hint⟩
  | .error cause => .error ⟨pattern, cause⟩

end TreeLint
