import TreeLint.Number.Decimal

/-!
Contract: syntax trees as numbered nodes.

Owns:
- values, which are those of JSON and references to nodes;
- trees, as arrays of nodes; a node knows its type, its parent, its children and its fields;
- look-up of single nodes, and the chain of ancestors.

The nodes of a tree are numbered in document order, the root is node zero, and a parent comes before its
children.
-/

set_option autoImplicit false

namespace TreeLint

inductive Value where
  | null
  | bool (value : Bool)
  | number (value : Double)
  | string (value : String)
  | array (items : List Value)
  /-- An object that is not a node; its keys in source order. -/
  | object (fields : List (String × Value))
  | node (id : Nat)
  deriving Repr

namespace Value

def refersTo (id : Nat) : Value → Bool
  | .node other => other == id
  | _ => false

theorem refersTo_iff {id : Nat} {value : Value} : value.refersTo id = true ↔ value = .node id := by
  cases value <;> simp [refersTo]

end Value

structure Node where
  /-- The type of the node. -/
  kind : String
  /-- The nearest node around it; only the root has none. -/
  parent : Option Nat
  /-- The nodes that it is the parent of, in document order. -/
  children : List Nat
  /-- All fields but the one named `parent`, in source order. -/
  fields : List (String × Value)
  deriving Repr

structure Tree where
  nodes : Array Node
  deriving Repr

namespace Tree

def size (tree : Tree) : Nat := tree.nodes.size

def node? (tree : Tree) (id : Nat) : Option Node := tree.nodes[id]?

def kind? (tree : Tree) (id : Nat) : Option String := (tree.node? id).map Node.kind

def parent? (tree : Tree) (id : Nat) : Option Nat := (tree.node? id).bind Node.parent

/-- The children of a node, in document order. -/
def children (tree : Tree) (id : Nat) : List Nat :=
  ((tree.node? id).map Node.children).getD []

/-- The fields of a node, in source order. -/
def fields (tree : Tree) (id : Nat) : List (String × Value) :=
  ((tree.node? id).map Node.fields).getD []

def root : Nat := 0

/-- All node numbers, in document order. -/
def nodeIds (tree : Tree) : List Nat := List.range tree.size

/-- The strict ancestors of a node, nearest first. A parent comes before its children, so the chain
descends. -/
def ancestors (tree : Tree) (id : Nat) : List Nat :=
  match tree.parent? id with
  | none => []
  | some parent => if parent < id then parent :: tree.ancestors parent else []
termination_by id

end Tree

end TreeLint
