import TreeLint.Matching.Semantics

/-!
Contract: what well-formedness of a selector says about its parts.

Owns: one lemma for each kind of part, and one for all of them. A computation that descends along a selector
keeps to well-formed selectors by them.

Does not own: which selectors are well formed.
-/

set_option autoImplicit false

namespace TreeLint.Selector.WellFormed

variable {marked : Bool}

theorem condition {condition : Atom} (wellFormed : WellFormed (.atom marked condition)) :
    condition.WellFormed := by
  cases wellFormed with
  | atom inner => exact inner

theorem left {combinator : Combinator} {left right : Selector}
    (wellFormed : WellFormed (.joined marked combinator left right)) : left.WellFormed := by
  cases wellFormed with
  | joined inner _ => exact inner

theorem right {combinator : Combinator} {left right : Selector}
    (wellFormed : WellFormed (.joined marked combinator left right)) : right.WellFormed := by
  cases wellFormed with
  | joined _ inner => exact inner

theorem compound_member {members : List Selector}
    (wellFormed : WellFormed (.compound marked members)) :
    ∀ member ∈ members, member.WellFormed := by
  cases wellFormed with
  | compound inner => exact inner

theorem union_member {members : List Selector}
    (wellFormed : WellFormed (.union marked members)) :
    ∀ member ∈ members, member.WellFormed := by
  cases wellFormed with
  | union inner => exact inner

/-- The parts of a well-formed selector are well formed. -/
theorem child {selector part : Selector} (wellFormed : selector.WellFormed)
    (isPart : part ∈ selector.children) : part.WellFormed := by
  cases wellFormed with
  | atom _ => simp [children] at isPart
  | joined left right =>
      simp only [children, List.mem_cons, List.not_mem_nil, or_false] at isPart
      rcases isPart with rfl | rfl
      · exact left
      · exact right
  | compound inner => exact inner part isPart
  | union inner => exact inner part isPart

end TreeLint.Selector.WellFormed
