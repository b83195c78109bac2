import TreeLint.Number.Decimal

/-!
Contract: selectors, the patterns that pick out nodes of a syntax tree.

Owns:
- the type `Selector` and the types of its parts;
- the subject mark of a term, which is carried along and never changes what a selector means;
- equality of selectors, in which numbers compare as numbers.
-/

set_option autoImplicit false

namespace TreeLint

inductive Comparison where
  | equal
  | notEqual
  | less
  | lessOrEqual
  | greater
  | greaterOrEqual
  deriving DecidableEq, Repr

namespace Comparison

def symbol : Comparison → String
  | .equal => "="
  | .notEqual => "!="
  | .less => "<"
  | .lessOrEqual => "<="
  | .greater => ">"
  | .greaterOrEqual => ">="

/-- The two operators that take any operand; the other four take strings and numbers only. -/
def isEquality : Comparison → Bool
  | .equal | .notEqual => true
  | _ => false

end Comparison

inductive Operand where
  | string (text : String)
  | number (value : Double)
  /-- A regular expression, given by its source and its flags. -/
  | regex (source flags : String)
  /-- The name of a kind of value, such as `string`. -/
  | typeName (name : String)
  deriving DecidableEq, Repr

namespace Operand

/-- Equality of operands; numbers compare as numbers. -/
def same : Operand → Operand → Bool
  | .number x, .number y => x.same y
  | left, right => left == right

def isLiteral : Operand → Bool
  | .string _ | .number _ => true
  | _ => false

end Operand

structure Test where
  comparison : Comparison
  operand : Operand
  deriving DecidableEq, Repr

/-- A test is well formed unless it orders a value against a regular expression or a type name. -/
def Test.WellFormed (test : Test) : Prop :=
  test.comparison.isEquality = true ∨ test.operand.isLiteral = true

instance (test : Test) : Decidable test.WellFormed := by
  unfold Test.WellFormed; infer_instance

/-- The conditions on a single node that have no parts. -/
inductive Atom where
  /-- The node has this type. -/
  | identifier (name : String)
  /-- Any node. -/
  | wildcard
  /-- The node is reached from one of its ancestors by this chain of fields. -/
  | field (path : List String)
  /-- The value at a path is present, or passes a test. -/
  | attribute (path : List String) (test : Option Test)
  deriving DecidableEq, Repr

namespace Atom

def same : Atom → Atom → Bool
  | .attribute path (some test), .attribute path' (some test') =>
      path == path' && test.comparison == test'.comparison && test.operand.same test'.operand
  | left, right => left == right

def WellFormed : Atom → Prop
  | .attribute _ (some test) => test.WellFormed
  | _ => True

end Atom

/-- How two selectors are joined: the right one selects the node, the left one its parent or any of its
strict ancestors. -/
inductive Combinator where
  | child
  | descendant
  deriving DecidableEq, Repr

/-- A selector. Every term carries the subject mark of its sequence. -/
inductive Selector where
  | atom (subject : Bool) (condition : Atom)
  | joined (subject : Bool) (combinator : Combinator) (left right : Selector)
  /-- All of the members hold. -/
  | compound (subject : Bool) (members : List Selector)
  /-- At least one of the members holds. -/
  | union (subject : Bool) (members : List Selector)
  deriving Repr

namespace Selector

def subject : Selector → Bool
  | .atom marked _ | .joined marked _ _ _ | .compound marked _ | .union marked _ => marked

def withSubject (marked : Bool) : Selector → Selector
  | .atom _ condition => .atom marked condition
  | .joined _ combinator left right => .joined marked combinator left right
  | .compound _ members => .compound marked members
  | .union _ members => .union marked members

def ofAtom (condition : Atom) : Selector := .atom false condition

def children : Selector → List Selector
  | .atom _ _ => []
  | .joined _ _ left right => [left, right]
  | .compound _ members | .union _ members => members

mutual

/-- Equality of selectors; numbers in them compare as numbers. -/
def same : Selector → Selector → Bool
  | .atom m a, .atom m' a' => m == m' && a.same a'
  | .joined m c l r, .joined m' c' l' r' => m == m' && c == c' && same l l' && same r r'
  | .compound m s, .compound m' s' => m == m' && sameMembers s s'
  | .union m s, .union m' s' => m == m' && sameMembers s s'
  | _, _ => false

def sameMembers : List Selector → List Selector → Bool
  | [], [] => true
  | s :: rest, s' :: rest' => same s s' && sameMembers rest rest'
  | _, _ => false

end

inductive WellFormed : Selector → Prop where
  | atom {marked : Bool} {condition : Atom} :
      condition.WellFormed → WellFormed (.atom marked condition)
  | joined {marked : Bool} {combinator : Combinator} {left right : Selector} :
      WellFormed left → WellFormed right → WellFormed (.joined marked combinator left right)
  | compound {marked : Bool} {members : List Selector} :
      (∀ member ∈ members, WellFormed member) → WellFormed (.compound marked members)
  | union {marked : Bool} {members : List Selector} :
      (∀ member ∈ members, WellFormed member) → WellFormed (.union marked members)

end Selector

end TreeLint
