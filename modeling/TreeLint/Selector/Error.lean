/-!
Contract: why a selector text is refused, and the words in which that is told.

Owns: the causes, the position and the offending text of an error, and its one rendering.
-/

set_option autoImplicit false

namespace TreeLint

inductive RegexFault where
  /-- Nothing stands between the slashes. -/
  | emptyPattern
  /-- The pattern is not a regular expression. -/
  | rejected (reason : String)
  deriving DecidableEq, Repr

def RegexFault.message : RegexFault → String
  | .emptyPattern => "empty pattern"
  | .rejected reason => reason

namespace SelectorError

inductive Cause where
  | emptySelector
  | unexpectedCharacter
  | unexpectedToken
  | unexpectedEnd
  | unterminatedString
  | unterminatedRegex
  | unterminatedType
  | invalidNumber
  | invalidRegex (fault : RegexFault)
  | unknownRegexFlag (flag : Char)
  deriving DecidableEq, Repr

def Cause.message : Cause → String
  | .emptySelector => "empty selector"
  | .unexpectedCharacter => "unexpected character"
  | .unexpectedToken => "unexpected token"
  | .unexpectedEnd => "unexpected end of selector"
  | .unterminatedString => "unterminated string literal"
  | .unterminatedRegex => "unterminated regular expression"
  | .unterminatedType => "unterminated type(...)"
  | .invalidNumber => "invalid number"
  | .invalidRegex fault => "invalid regular expression: " ++ fault.message
  | .unknownRegexFlag flag =>
      "unsupported regular expression flag \x60" ++ String.singleton flag ++ "\x60"

end SelectorError

structure SelectorError where
  cause : SelectorError.Cause
  /-- The byte offset in the text. -/
  position : Nat
  /-- The offending text, if there is any. -/
  found : Option String
  deriving DecidableEq, Repr

def SelectorError.message (error : SelectorError) : String :=
  let place := error.cause.message ++ " at byte " ++ toString error.position
  match error.found with
  | some text => place ++ " (found \x60" ++ text ++ "\x60)"
  | none => place

end TreeLint
