/-!
Contract: why a pattern is not a regular expression.

Owns: the causes and their words.
-/

set_option autoImplicit false

namespace TreeLint.Regex

inductive Fault where
  | unclosedGroup
  | unclosedClass
  | invalidClass
  | surplusText
  | nothingToRepeat
  | boundsOutOfOrder
  | unknownEscape (c : Char)
  | trailingBackslash
  | invalidCodePoint
  | unknownFlag
  | invalidGroupName
  | invalidReference
  | mixedReferences
  | nestedTooDeep
  | unknownProperty
  | variableLookBehind
  deriving DecidableEq, Repr

def Fault.message : Fault → String
  | .unclosedGroup => "a group is not closed"
  | .unclosedClass => "a character class is not closed"
  | .invalidClass => "a character class is malformed"
  | .surplusText => "a closing parenthesis has no opening one"
  | .nothingToRepeat => "there is nothing to repeat"
  | .boundsOutOfOrder => "a repetition has its bounds out of order"
  | .unknownEscape c => "unknown escape \\" ++ String.singleton c
  | .trailingBackslash => "a backslash ends the pattern"
  | .invalidCodePoint => "an escape does not denote a character"
  | .unknownFlag => "unknown inline flag"
  | .invalidGroupName => "invalid group name"
  | .invalidReference => "reference to a missing group"
  | .mixedReferences => "numbered references beside named groups"
  | .nestedTooDeep => "groups are nested too deep"
  | .unknownProperty => "unknown character property"
  | .variableLookBehind => "look-behind of variable length"

end TreeLint.Regex
