import TreeLint.Regex.CharSet

/-!
Contract: regular expressions as trees.

Owns:
- the type of expressions;
- their sizes: the least number of characters that a match takes, and whether every match takes the same
  number;
- which expressions need backtracking: those with look-around, back-references, atomic groups, word
  boundaries, or a group that a back-reference refers to.
-/

set_option autoImplicit false

namespace TreeLint.Regex

inductive Assertion where
  | startText
  | endText
  | startLine
  | endLine
  | wordBoundary
  | notWordBoundary
  | wordStart
  | wordEnd
  deriving DecidableEq, Repr

/-- The conditions that look at the characters on both sides. -/
def Assertion.looksAround : Assertion → Bool
  | .wordBoundary | .notWordBoundary | .wordStart | .wordEnd => true
  | _ => false

inductive Expression where
  | empty
  /-- Any character; a line feed only if `newline` is set. -/
  | any (newline : Bool)
  | literal (c : Char) (ignoreCase : Bool)
  /-- One character of a set. -/
  | oneOf (set : CharSet)
  | assertion (condition : Assertion)
  /-- The place where the search began. -/
  | searchStart
  /-- A mark that moves the beginning of the reported match and has no bearing on whether there is one. -/
  | keep
  | concat (parts : List Expression)
  | alternatives (choices : List Expression)
  /-- A group whose text can be referred to by its number. -/
  | group (index : Nat) (body : Expression)
  /-- From `least` to `most` copies, without an upper bound if there is no `most`. -/
  | repetition (body : Expression) (least : Nat) (most : Option Nat) (greedy : Bool)
  | look (behind negative : Bool) (body : Expression)
  /-- The text that a group matched last. -/
  | reference (index : Nat)
  /-- A group that gives nothing back once it has matched. -/
  | atomic (body : Expression)
  /-- Whether a group has matched. -/
  | matched (index : Nat)
  /-- The second part if the first matches, otherwise the third. -/
  | conditional (condition yes no : Expression)
  deriving Repr, BEq

namespace Expression

mutual

/-- The least number of characters that a match takes. -/
def minSize : Expression → Nat
  | .any _ | .literal _ _ | .oneOf _ => 1
  | .concat parts => minSizeSum parts
  | .alternatives choices => minSizeLeast choices
  | .group _ body | .atomic body => minSize body
  | .repetition body least _ _ => minSize body * least
  | .conditional condition yes no => minSize condition + min (minSize yes) (minSize no)
  | _ => 0

def minSizeSum : List Expression → Nat
  | [] => 0
  | part :: rest => minSize part + minSizeSum rest

def minSizeLeast : List Expression → Nat
  | [] => 0
  | [only] => minSize only
  | choice :: rest => min (minSize choice) (minSizeLeast rest)

end

mutual

/-- Whether every match takes the same number of characters. -/
def hasConstantSize : Expression → Bool
  | .concat parts => allConstant parts
  | .alternatives choices => allConstant choices && allSameSize choices
  | .group _ body | .atomic body => hasConstantSize body
  | .repetition body least most _ => hasConstantSize body && most == some least
  | .reference _ => false
  | .conditional condition yes no =>
      hasConstantSize condition && hasConstantSize yes && hasConstantSize no
        && minSize yes == minSize no
  | _ => true

def allConstant : List Expression → Bool
  | [] => true
  | part :: rest => hasConstantSize part && allConstant rest

def allSameSize : List Expression → Bool
  | first :: second :: rest => minSize first == minSize second && allSameSize (second :: rest)
  | _ => true

end

mutual

/-- Whether the expression needs backtracking, when the groups in `referenced` are referred to. -/
def isHard (referenced : List Nat) : Expression → Bool
  | .assertion condition => condition.looksAround
  | .concat parts | .alternatives parts => anyHard referenced parts
  | .group index body => isHard referenced body || referenced.contains index
  | .repetition body _ _ _ => isHard referenced body
  | .look _ _ _ | .reference _ | .atomic _ | .searchStart | .keep | .matched _
  | .conditional _ _ _ => true
  | _ => false

def anyHard (referenced : List Nat) : List Expression → Bool
  | [] => false
  | part :: rest => isHard referenced part || anyHard referenced rest

end

mutual

/-- Whether every repetition has bounds in order. -/
def boundsInOrder : Expression → Bool
  | .concat parts | .alternatives parts => allBoundsInOrder parts
  | .group _ body | .atomic body | .look _ _ body => boundsInOrder body
  | .repetition body least most _ => most.all (least ≤ ·) && boundsInOrder body
  | .conditional condition yes no =>
      boundsInOrder condition && boundsInOrder yes && boundsInOrder no
  | _ => true

def allBoundsInOrder : List Expression → Bool
  | [] => true
  | part :: rest => boundsInOrder part && allBoundsInOrder rest

end

end Expression

end TreeLint.Regex
