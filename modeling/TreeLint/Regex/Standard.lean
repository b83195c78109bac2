import TreeLint.Regex.Machine
import TreeLint.Regex.Parser

/-!
Contract: the regular expressions of selectors.

Owns: `RegexEngine.standard`, which reads patterns and searches for them. Expressions that need no
backtracking are searched in polynomial time; the others by a machine with a budget.
-/

set_option autoImplicit false

namespace TreeLint

namespace Regex

/-- The flags that letters after an expression switch on. Matching is always by Unicode characters, so
`u` adds nothing. -/
def Flags.ofLetters (letters : List Char) : Flags :=
  { ignoreCase := letters.contains 'i'
    multiLine := letters.contains 'm'
    dotAll := letters.contains 's' }

/-- The number of bytes that the flags add to a pattern when they are written in front of it. -/
def flagBytes (letters : List Char) : Nat :=
  match (letters.filter (· != 'u')).length with
  | 0 => 0
  | count => count + 3

inductive Program where
  /-- Without backtracking. -/
  | direct (expression : Expression)
  | backtracking (code : Code)

def Program.ofPattern (source flags : String) : Except Fault Program := do
  let letters := flags.toList
  let pattern ← Pattern.read (.ofLetters letters) (flagBytes letters + source.utf8ByteSize) source.toList
  if pattern.expression.isHard pattern.referenced then
    return .backtracking (← pattern.expression.compile pattern.referenced true)
  else if pattern.expression.boundsInOrder then return .direct pattern.expression
  else throw .boundsOutOfOrder

def Program.search (program : Program) (text : String) : SearchOutcome :=
  let characters := text.toList.toArray
  match program with
  | .direct expression => if expression.occurs characters then .found else .absent
  | .backtracking code => Machine.search code characters

end Regex

/-- The engine for the regular expressions of selectors. -/
def RegexEngine.standard : RegexEngine where
  check source flags :=
    match Regex.Program.ofPattern source flags with
    | .ok _ => .ok ()
    | .error fault => .error fault.message
  search source flags text :=
    match Regex.Program.ofPattern source flags with
    | .ok program => program.search text
    | .error _ => .absent

end TreeLint
