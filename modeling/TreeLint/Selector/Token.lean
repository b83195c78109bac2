import TreeLint.Selector.Basic
import TreeLint.Text.Blank
import TreeLint.Text.Quoted

/-!
Contract: the tokens of a selector text.

Owns: the kinds of tokens, a token with its position, how a token is shown in a message, and the
characters that names are made of.
-/

set_option autoImplicit false

namespace TreeLint

/-- The characters with a meaning of their own, which end a name. -/
def reservedCharacters : List Char :=
  [' ', '[', ']', ',', '(', ')', ':', '#', '!', '=', '>', '<', '~', '+', '.']

/-- Names are made of all characters that are neither blank nor reserved. -/
def isNameCharacter (c : Char) : Bool :=
  !Text.isBlank c && !reservedCharacters.contains c

inductive TokenKind where
  /-- A run of layout characters outside brackets. -/
  | space
  | comma
  | greater
  | bang
  | star
  | hash
  | dot
  | leftBracket
  | rightBracket
  | name (text : String)
  | comparison (operator : Comparison)
  | string (value : String)
  | number (value : Double)
  | regex (source flags : String)
  | typeName (name : String)
  deriving DecidableEq, Repr

namespace TokenKind

/-- How a token is shown in a message. -/
def describe : TokenKind → String
  | .space => " "
  | .comma => ","
  | .greater => ">"
  | .bang => "!"
  | .star => "*"
  | .hash => "#"
  | .dot => "."
  | .leftBracket => "["
  | .rightBracket => "]"
  | .name text => text
  | .comparison operator => operator.symbol
  | .string value => String.ofList (Text.quoted value.toList)
  | .number value => value.text
  | .regex source flags => "/" ++ source ++ "/" ++ flags
  | .typeName label => "type(" ++ label ++ ")"

def startsAtom : TokenKind → Bool
  | .star | .hash | .name _ | .dot | .leftBracket => true
  | _ => false

def startsSequence : TokenKind → Bool
  | .bang => true
  | kind => kind.startsAtom

end TokenKind

/-- A token and the byte offset at which it starts. -/
structure Token where
  kind : TokenKind
  position : Nat
  deriving DecidableEq, Repr

end TreeLint
