import TreeLint.Tree.Lookup

/-!
Contract: chains of fields.

Owns: the search for a node along a chain of fields, with a stack of its own. It starts at the ancestor that is as
far away as the chain is long; arrays on the way are searched item by item.
-/

set_option autoImplicit false

namespace TreeLint

/-- What a search goes on with: the items of an array, and any other value itself. -/
def Value.searched : Value → List Value
  | .array items => items
  | value => [value]

namespace Tree

def searchedAt (tree : Tree) (value : Value) (segment : String) : List Value :=
  match tree.lookup value segment with
  | some next => next.searched
  | none => []

/-- The number of values that a search along a path takes from its stack, from a value on. -/
def searchSize (tree : Tree) : (path : List String) → Value → Nat
  | [], _ => 1
  | segment :: rest, value =>
      (tree.searchedAt value segment).foldr (fun part size => tree.searchSize rest part + size) 1

def stackSize (tree : Tree) : (stack : List (Value × List String)) → Nat
  | [] => 0
  | (value, path) :: stack => tree.searchSize path value + tree.stackSize stack

theorem stackSize_lt_of_end (tree : Tree) (value : Value) (stack : List (Value × List String)) :
    tree.stackSize stack < tree.stackSize ((value, []) :: stack) :=
  Nat.lt_add_of_pos_left Nat.one_pos

theorem stackSize_append_lt (tree : Tree) (parts : List Value) (rest : List String)
    (stack : List (Value × List String)) :
    tree.stackSize (parts.map (·, rest) ++ stack)
      < parts.foldr (fun part size => tree.searchSize rest part + size) 1 + tree.stackSize stack := by
  induction parts with
  | nil => exact Nat.lt_add_of_pos_left Nat.one_pos
  | cons part others inductionHypothesis =>
      rw [List.map_cons, List.cons_append, stackSize, List.foldr_cons, Nat.add_assoc]
      exact Nat.add_lt_add_left inductionHypothesis _

/-- Whether a search comes to the node. The stack holds what is still to be searched, the next value first, each
with the segments that lead on from it. -/
def searchReaches (tree : Tree) (goal : Nat) : (stack : List (Value × List String)) → Bool
  | [] => false
  | (value, []) :: stack => value.refersTo goal || tree.searchReaches goal stack
  | (value, segment :: rest) :: stack =>
      tree.searchReaches goal ((tree.searchedAt value segment).map (·, rest) ++ stack)
termination_by stack => tree.stackSize stack
decreasing_by
  · exact tree.stackSize_lt_of_end value stack
  · exact tree.stackSize_append_lt (tree.searchedAt value segment) rest stack

/-- Whether a chain of fields reaches the node from the ancestor that is as far away as the chain is
long. -/
def fieldReaches (tree : Tree) (path : List String) (id : Nat) : Bool :=
  match path.length with
  | 0 => false
  | levels + 1 =>
      match (tree.ancestors id)[levels]? with
      | none => false
      | some start => tree.searchReaches id [(.node start, path)]

end Tree

end TreeLint
