import TreeLint.Document.Formats
import TreeLint.Tree.Basic

/-!
Contract: from a JSON document to a syntax tree.

Owns: `Tree.ofJson` and `Tree.read`. Every object with a string under the key `type` is a node, every other
object is plain data, and members with the key `parent` are left out: parents follow from nesting. A document is
refused if its root is no node, or if it has more nodes than there are numbers for them.
-/

set_option autoImplicit false

namespace TreeLint

inductive TreeError where
  | invalidJson (reason : String)
  | rootNotNode
  | tooManyNodes
  deriving DecidableEq, Repr

/-- The largest number that a node can have. -/
def Tree.lastNumber : Nat := UInt32.size - 1

def TreeError.message : TreeError → String
  | .invalidJson reason => "invalid JSON: " ++ reason
  | .rootNotNode =>
      "root value is not a node (expected an object with a string \x60type\x60 member)"
  | .tooManyNodes => "tree has more than " ++ toString Tree.lastNumber ++ " nodes"

@[simp] theorem TreeError.message_invalidJson (reason : String) :
    (invalidJson reason).message = "invalid JSON: " ++ reason := rfl

/-- The type of the node that an object with these members is, if it is one. -/
def nodeType? (members : List (String × Json)) : Option String :=
  match Json.lookup? "type" members with
  | some (.string kind) => some kind
  | _ => none

/-- What a part of a document adds to a tree: its value, the nodes directly in it, and all of its nodes in
document order. -/
structure Grown (α : Type) where
  value : α
  children : List Nat
  nodes : List Node

namespace Grown

def plain {α : Type} (value : α) : Grown α := ⟨value, [], []⟩

def map {α β : Type} (f : α → β) (grown : Grown α) : Grown β :=
  ⟨f grown.value, grown.children, grown.nodes⟩

def join {α β γ : Type} (f : α → β → γ) (first : Grown α) (second : Grown β) : Grown γ :=
  ⟨f first.value second.value, first.children ++ second.children, first.nodes ++ second.nodes⟩

def toNode (id : Nat) (kind : String) (parent : Option Nat)
    (fields : Grown (List (String × Value))) : Grown Value :=
  ⟨.node id, [id], ⟨kind, parent, fields.children, fields.value⟩ :: fields.nodes⟩

end Grown

namespace Tree

mutual

/-- Grows a document inside the node `parent`; `next` is the number of the next node. -/
def grow (parent next : Nat) : Json → Grown Value
  | .null => .plain .null
  | .bool value => .plain (.bool value)
  | .number value => .plain (.number value.toDouble)
  | .string value => .plain (.string value)
  | .array items => (growItems parent next items).map Value.array
  | .object members =>
      match nodeType? members with
      | some kind => (growMembers next (next + 1) members).toNode next kind (some parent)
      | none => (growMembers parent next members).map Value.object

def growItems (parent next : Nat) : List Json → Grown (List Value)
  | [] => .plain []
  | item :: rest =>
      let first := grow parent next item
      first.join List.cons (growItems parent (next + first.nodes.length) rest)

/-- Grows the members of an object, but for those with the key `parent`. -/
def growMembers (parent next : Nat) : List (String × Json) → Grown (List (String × Value))
  | [] => .plain []
  | (key, value) :: rest =>
      if key = "parent" then growMembers parent next rest
      else
        let first := grow parent next value
        first.join (fun value others => (key, value) :: others)
          (growMembers parent (next + first.nodes.length) rest)

end

def ofJson : Json → Except TreeError Tree
  | .object members =>
      match nodeType? members with
      | some kind =>
          let nodes := ((growMembers root (root + 1) members).toNode root kind none).nodes
          if nodes.length ≤ lastNumber + 1 then .ok ⟨nodes.toArray⟩ else .error .tooManyNodes
      | none => .error .rootNotNode
  | _ => .error .rootNotNode

/-- A document has a tree only if its root is a node, and then the tree is grown from its members. -/
theorem exists_of_ofJson {document : Json} {tree : Tree} (built : ofJson document = .ok tree) :
    ∃ members kind, document = .object members ∧ nodeType? members = some kind ∧
      tree = ⟨((growMembers root (root + 1) members).toNode root kind none).nodes.toArray⟩ ∧
      tree.size ≤ lastNumber + 1 := by
  unfold ofJson at built
  split at built
  · rename_i members
    split at built
    · rename_i kind isNode
      dsimp only at built
      split at built
      · rename_i fits
        cases built
        exact ⟨members, kind, rfl, isNode, rfl, fits⟩
      · cases built
    · cases built
  · cases built

def read (formats : Formats) (text : String) : Except TreeError Tree :=
  match formats.json text with
  | .ok document => ofJson document
  | .error reason => .error (.invalidJson reason)

end Tree

end TreeLint
