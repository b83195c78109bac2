import TreeLint.Tree.Basic

/-!
Contract: safe navigation in a tree.

Owns: one step of navigation and its repetition along a path. What is missing is absent and never an
error.
-/

set_option autoImplicit false

namespace TreeLint

def maxIndex : Nat := Nat.pow 2 64 - 1

/-- The index that a path segment denotes: decimal digits, perhaps after a plus sign, of at most
64 bits. -/
def arrayIndex? (segment : String) : Option Nat :=
  let digits :=
    match segment.toList with
    | '+' :: rest => rest
    | rest => rest
  if digits.isEmpty || !digits.all Char.isDigit then none
  else
    let index := digitsValue 0 digits
    if index ≤ maxIndex then some index else none

def fieldValue? (name : String) : List (String × Value) → Option Value
  | [] => none
  | (key, value) :: rest => if key = name then some value else fieldValue? name rest

namespace Tree

/-- One step of navigation: nodes and objects have fields, arrays have items and a length, strings have a
length. -/
def lookup (tree : Tree) (value : Value) (segment : String) : Option Value :=
  match value with
  | .node id => fieldValue? segment (tree.fields id)
  | .object fields => fieldValue? segment fields
  | .array items =>
      if segment = "length" then some (.number (.ofNat items.length))
      else (arrayIndex? segment).bind fun index => items[index]?
  | .string text =>
      if segment = "length" then some (.number (.ofNat text.length)) else none
  | _ => none

def follow (tree : Tree) : Value → List String → Option Value
  | value, [] => some value
  | value, segment :: rest =>
      match tree.lookup value segment with
      | some next => tree.follow next rest
      | none => none

def resolve (tree : Tree) (id : Nat) (path : List String) : Option Value :=
  tree.follow (.node id) path

end Tree

end TreeLint
