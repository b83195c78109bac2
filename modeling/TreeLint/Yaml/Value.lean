import TreeLint.Number.Decimal

/-!
Contract: YAML documents as values.

Owns: values, the equality by which keys are told apart, and the views of a value that look through tags.
-/

set_option autoImplicit false

namespace TreeLint

inductive Yaml where
  | null
  | bool (value : Bool)
  | whole (value : Int)
  | decimal (value : Double)
  | string (value : String)
  | sequence (items : List Yaml)
  | mapping (entries : List (Yaml × Yaml))
  | tagged (tag : String) (value : Yaml)
  deriving Repr

namespace Yaml

/-- Equality of numbers as keys: "not a number" equals itself. -/
def sameDecimal (left right : Double) : Bool :=
  match left, right with
  | .nan, .nan => true
  | left, right => left.same right

mutual

/-- Equality of values as keys. The order of entries does not count. -/
def same : Yaml → Yaml → Bool
  | .null, .null => true
  | .bool left, .bool right => left == right
  | .whole left, .whole right => left == right
  | .decimal left, .decimal right => sameDecimal left right
  | .string left, .string right => left == right
  | .sequence left, .sequence right => sameItems left right
  | .mapping left, .mapping right => left.length == right.length && allFound left right
  | .tagged left value, .tagged right other => left == right && same value other
  | _, _ => false
termination_by left => sizeOf left

def sameItems : List Yaml → List Yaml → Bool
  | [], [] => true
  | left :: lefts, right :: rights => same left right && sameItems lefts rights
  | _, _ => false
termination_by left => sizeOf left

def allFound : List (Yaml × Yaml) → List (Yaml × Yaml) → Bool
  | [], _ => true
  | (key, value) :: rest, others =>
      (others.any fun other => same key other.1 && same value other.2) && allFound rest others
termination_by left => sizeOf left

end

def untagged : Yaml → Yaml
  | .tagged _ value => value.untagged
  | value => value

def string? (value : Yaml) : Option String :=
  match value.untagged with
  | .string text => some text
  | _ => none

def bool? (value : Yaml) : Option Bool :=
  match value.untagged with
  | .bool truth => some truth
  | _ => none

def sequence? (value : Yaml) : Option (List Yaml) :=
  match value.untagged with
  | .sequence items => some items
  | _ => none

def mapping? (value : Yaml) : Option (List (Yaml × Yaml)) :=
  match value.untagged with
  | .mapping entries => some entries
  | _ => none

def isNull (value : Yaml) : Bool :=
  match value.untagged with
  | .null => true
  | _ => false

def lookup? (key : String) : List (Yaml × Yaml) → Option Yaml
  | [] => none
  | (.string other, value) :: rest => if other = key then some value else lookup? key rest
  | _ :: rest => lookup? key rest

end Yaml

end TreeLint
