import TreeLint.Number.Decimal

/-!
Contract: JSON documents as trees.

Owns: the type `Json`, its numbers, and objects as lists of members in which each key occurs once. Members keep
the order of the text. If a text gives a key twice, the last value counts, at the place of the first one.
-/

set_option autoImplicit false

namespace TreeLint

/-- A number of a document: whole numbers of up to 64 bits are kept exactly. -/
inductive JsonNumber where
  | whole (negative : Bool) (magnitude : Nat)
  | decimal (value : Double)
  deriving DecidableEq, Repr

def JsonNumber.toDouble : JsonNumber → Double
  | .whole negative magnitude => .signed negative (Magnitude.nearest magnitude 1)
  | .decimal value => value

inductive Json where
  | null
  | bool (value : Bool)
  | number (value : JsonNumber)
  | string (value : String)
  | array (items : List Json)
  | object (members : List (String × Json))
  deriving Repr

namespace Json

def lookup? (key : String) : List (String × Json) → Option Json
  | [] => none
  | (other, value) :: rest => if other = key then some value else lookup? key rest

/-- The members with one more. A key that is present keeps its place and gets the new value. -/
def insertMember (key : String) (value : Json) : List (String × Json) → List (String × Json)
  | [] => [(key, value)]
  | (other, old) :: rest =>
      if other = key then (key, value) :: rest else (other, old) :: insertMember key value rest

/-- The object of members in the order in which they were read. -/
def ofMembers (members : List (String × Json)) : Json :=
  .object (members.foldl (fun kept (key, value) => insertMember key value kept) [])

end Json

end TreeLint
