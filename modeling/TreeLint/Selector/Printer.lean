import TreeLint.Selector.Basic

/-!
Contract: the canonical text of a selector.

Owns: `Selector.render`. Names, paths, operators, numbers and regular expressions are written as they
are read; strings stand between double quotes with escapes; `>` has a space on either side, alternatives
are separated by a comma and a space, and the atoms of a sequence follow each other directly.
-/

set_option autoImplicit false

namespace TreeLint

/-- A character of a string literal, escaped where the reader needs it. -/
def escapeLiteral : Char → List Char
  | '"' => ['\\', '"']
  | '\\' => ['\\', '\\']
  | '\n' => ['\\', 'n']
  | '\r' => ['\\', 'r']
  | '\t' => ['\\', 't']
  | '\x08' => ['\\', 'b']
  | '\x0b' => ['\\', 'v']
  | '\x0c' => ['\\', 'f']
  | c => [c]

def Operand.render : Operand → List Char
  | .string text => '"' :: (text.toList.flatMap escapeLiteral ++ ['"'])
  | .number value => value.render
  | .regex source flags => '/' :: (source.toList ++ '/' :: flags.toList)
  | .typeName name => ['t', 'y', 'p', 'e', '('] ++ name.toList ++ [')']

def Test.render (test : Test) : List Char :=
  test.comparison.symbol.toList ++ test.operand.render

/-- The segments of a path with points between them. -/
def renderPath (path : List String) : List Char :=
  (".".intercalate path).toList

def Atom.render : Atom → List Char
  | .identifier name => name.toList
  | .wildcard => ['*']
  | .field path => '.' :: renderPath path
  | .attribute path test =>
      '[' :: (renderPath path ++ (test.map Test.render).getD [] ++ [']'])

def Combinator.render : Combinator → List Char
  | .child => [' ', '>', ' ']
  | .descendant => [' ']

namespace Selector

def renderMark (subject : Bool) : List Char := if subject then ['!'] else []

mutual

/-- The canonical text of a selector. -/
def render : Selector → List Char
  | .atom subject condition => renderMark subject ++ condition.render
  | .joined subject combinator left right =>
      renderMark subject ++ (render left ++ combinator.render ++ render right)
  | .compound subject members => renderMark subject ++ renderSequence members
  | .union subject members => renderMark subject ++ renderAlternatives members

/-- The canonical texts of members that follow each other directly. -/
def renderSequence : List Selector → List Char
  | [] => []
  | member :: rest => render member ++ renderSequence rest

/-- The canonical texts of members with a comma and a space between them. -/
def renderAlternatives : List Selector → List Char
  | [] => []
  | member :: rest => render member ++ renderFurther rest

def renderFurther : List Selector → List Char
  | [] => []
  | member :: rest => ',' :: ' ' :: (render member ++ renderFurther rest)

end

def text (selector : Selector) : String := String.ofList selector.render

end Selector

end TreeLint
