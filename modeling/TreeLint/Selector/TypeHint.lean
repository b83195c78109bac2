import TreeLint.Selector.Basic

/-!
Contract: which node types a selector can match at all.

Owns: `Selector.hint`. A hint narrows the nodes on which a selector has to be tried, and never changes
what it matches. Sets of types are ascending lists of names.
-/

set_option autoImplicit false

namespace TreeLint

/-- A set of names: ascending, each name once. -/
abbrev NameSet := List String

namespace NameSet

def insert (name : String) : NameSet → NameSet
  | [] => [name]
  | other :: rest =>
      if name < other then name :: other :: rest
      else if name = other then other :: rest
      else other :: insert name rest

theorem mem_insert {name candidate : String} {names : NameSet} :
    candidate ∈ insert name names ↔ candidate = name ∨ candidate ∈ names := by
  induction names with
  | nil => simp [insert]
  | cons other rest ih =>
      unfold insert
      split
      · simp
      · split
        · rename_i same
          simp [same]
        · simp only [List.mem_cons, ih]
          constructor
          · rintro (h | h | h) <;> simp [h]
          · rintro (h | h | h) <;> simp [h]

def union (left right : NameSet) : NameSet := right.foldr insert left

theorem mem_union {name : String} {left right : NameSet} :
    name ∈ union left right ↔ name ∈ left ∨ name ∈ right := by
  induction right with
  | nil => simp [union]
  | cons other rest ih =>
      have step : union left (other :: rest) = insert other (union left rest) := rfl
      rw [step, mem_insert, ih, List.mem_cons]
      constructor
      · rintro (h | h | h) <;> simp [h]
      · rintro (h | h | h) <;> simp [h]

def inter (left right : NameSet) : NameSet := left.filter fun name => right.contains name

theorem mem_inter {name : String} {left right : NameSet} :
    name ∈ inter left right ↔ name ∈ left ∧ name ∈ right := by
  simp [inter]

end NameSet

/-- The node types that a selector can match; `none` where any type is possible. -/
abbrev TypeHint := Option NameSet

namespace TypeHint

/-- The hint for nodes that satisfy two conditions; a condition without a hint does not narrow. -/
def both : TypeHint → TypeHint → TypeHint
  | none, hint => hint
  | hint, none => hint
  | some left, some right => some (left.inter right)

/-- The hint for nodes that satisfy at least one of two conditions. -/
def either : TypeHint → TypeHint → TypeHint
  | some left, some right => some (left.union right)
  | _, _ => none

end TypeHint

namespace Selector

mutual

/-- The types of the nodes that the selector can match. The right side of a combinator is the node that
is matched. -/
def hint : Selector → TypeHint
  | .atom _ (.identifier name) => some [name]
  | .atom _ _ => none
  | .joined _ _ _ right => hint right
  | .compound _ members => hintOfAll members
  | .union _ members => hintOfAny members

def hintOfAll : List Selector → TypeHint
  | [] => none
  | member :: rest => (hint member).both (hintOfAll rest)

def hintOfAny : List Selector → TypeHint
  | [] => some []
  | member :: rest => (hint member).either (hintOfAny rest)

end

end Selector

end TreeLint
