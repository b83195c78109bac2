import TreeLint.Proofs.Selector.WellFormed
import TreeLint.Regex.Standard
import TreeLint.Selector.TypeHint
import TreeLint.Tree.Build

/-!
Contract: type hints only leave out nodes that cannot match.

Owns:
- soundness: a node that a selector matches has a type in the hint of the selector, so trying the selector on
  the nodes of these types only loses no match;
- sets of names are ascending, so a hint names each type once.
-/

set_option autoImplicit false

namespace TreeLint

/-! ### Ascending sets of names -/

namespace NameSet

def Ascending (names : NameSet) : Prop := names.Pairwise (· < ·)

theorem Ascending.nodup {names : NameSet} (ascending : names.Ascending) : names.Nodup := by
  refine List.Pairwise.imp ?_ ascending
  rintro name _ less rfl
  exact String.lt_irrefl name less

theorem Ascending.insert (name : String) {names : NameSet} (ascending : names.Ascending) :
    (insert name names).Ascending := by
  induction names with
  | nil => exact List.pairwise_singleton _ _
  | cons other rest inductionHypothesis =>
      obtain ⟨below, restAscending⟩ := List.pairwise_cons.mp ascending
      unfold NameSet.insert
      split
      · rename_i less
        refine List.pairwise_cons.mpr ⟨fun further member => ?_, ascending⟩
        rcases List.mem_cons.mp member with rfl | inRest
        · exact less
        · exact String.lt_trans less (below further inRest)
      · rename_i notLess
        split
        · exact ascending
        · rename_i different
          refine List.pairwise_cons.mpr ⟨fun further member => ?_, inductionHypothesis restAscending⟩
          rcases mem_insert.mp member with rfl | inRest
          · refine String.not_le.mp fun lessOrEqual => different ?_
            exact String.le_antisymm lessOrEqual (String.not_lt.mp notLess)
          · exact below further inRest

theorem Ascending.union {left : NameSet} (ascending : left.Ascending) (right : NameSet) :
    (union left right).Ascending := by
  induction right with
  | nil => exact ascending
  | cons name rest inductionHypothesis => exact inductionHypothesis.insert name

theorem Ascending.inter {left : NameSet} (ascending : left.Ascending) (right : NameSet) :
    (inter left right).Ascending :=
  List.Pairwise.filter _ ascending

end NameSet

namespace Selector

mutual

/-- A hint names its types in ascending order. -/
theorem hint_ascending : ∀ (selector : Selector) {kinds : NameSet},
    selector.hint = some kinds → kinds.Ascending
  | .atom _ (.identifier name), kinds, hinted => by
      simp only [hint, Option.some.injEq] at hinted
      subst hinted
      exact List.pairwise_singleton _ _
  | .atom _ .wildcard, _, hinted | .atom _ (.field _), _, hinted
  | .atom _ (.attribute _ _), _, hinted => by simp [hint] at hinted
  | .joined _ _ _ right, _, hinted => by
      rw [hint] at hinted
      exact hint_ascending right hinted
  | .compound _ members, _, hinted => by
      rw [hint] at hinted
      exact hintOfAll_ascending members hinted
  | .union _ members, _, hinted => by
      rw [hint] at hinted
      exact hintOfAny_ascending members hinted

theorem hintOfAll_ascending : ∀ (members : List Selector) {kinds : NameSet},
    hintOfAll members = some kinds → kinds.Ascending
  | [], _, hinted => by simp [hintOfAll] at hinted
  | member :: rest, kinds, hinted => by
      rw [hintOfAll] at hinted
      cases first : member.hint with
      | none =>
          rw [first] at hinted
          exact hintOfAll_ascending rest hinted
      | some left =>
          have ascending := hint_ascending member first
          rw [first] at hinted
          cases further : hintOfAll rest with
          | none =>
              rw [further] at hinted
              simp only [TypeHint.both, Option.some.injEq] at hinted
              exact hinted ▸ ascending
          | some right =>
              rw [further] at hinted
              simp only [TypeHint.both, Option.some.injEq] at hinted
              exact hinted ▸ ascending.inter right

theorem hintOfAny_ascending : ∀ (members : List Selector) {kinds : NameSet},
    hintOfAny members = some kinds → kinds.Ascending
  | [], _, hinted => by
      simp only [hintOfAny, Option.some.injEq] at hinted
      subst hinted
      exact List.Pairwise.nil
  | member :: rest, kinds, hinted => by
      rw [hintOfAny] at hinted
      cases first : member.hint with
      | none => simp [first, TypeHint.either] at hinted
      | some left =>
          cases further : hintOfAny rest with
          | none => simp [first, further, TypeHint.either] at hinted
          | some right =>
              simp only [first, further, TypeHint.either, Option.some.injEq] at hinted
              exact hinted ▸ (hint_ascending member first).union right

end

/-! ### Soundness -/

/-- The node has a type, and the hint, if there is one, names it. -/
def Admits (hint : TypeHint) (kind : Option String) : Prop :=
  ∀ kinds, hint = some kinds → ∃ name, kind = some name ∧ name ∈ kinds

theorem Admits.both {left right : TypeHint} {kind : Option String} (leftAdmits : Admits left kind)
    (rightAdmits : Admits right kind) : Admits (left.both right) kind := by
  intro kinds isBoth
  cases left with
  | none => exact rightAdmits kinds isBoth
  | some leftKinds =>
      cases right with
      | none => exact leftAdmits kinds isBoth
      | some rightKinds =>
          obtain ⟨name, isKind, inLeft⟩ := leftAdmits leftKinds rfl
          obtain ⟨name', isKind', inRight⟩ := rightAdmits rightKinds rfl
          rw [isKind, Option.some.injEq] at isKind'
          simp only [TypeHint.both, Option.some.injEq] at isBoth
          exact ⟨name, isKind, isBoth ▸ NameSet.mem_inter.mpr ⟨inLeft, isKind' ▸ inRight⟩⟩

theorem Admits.either_left {left : TypeHint} {kind : Option String} (leftAdmits : Admits left kind)
    (right : TypeHint) : Admits (left.either right) kind := by
  intro kinds isEither
  cases left with
  | none => simp [TypeHint.either] at isEither
  | some leftKinds =>
      cases right with
      | none => simp [TypeHint.either] at isEither
      | some rightKinds =>
          obtain ⟨name, isKind, inLeft⟩ := leftAdmits leftKinds rfl
          simp only [TypeHint.either, Option.some.injEq] at isEither
          exact ⟨name, isKind, isEither ▸ NameSet.mem_union.mpr (.inl inLeft)⟩

theorem Admits.either_right {right : TypeHint} {kind : Option String} (left : TypeHint)
    (rightAdmits : Admits right kind) : Admits (left.either right) kind := by
  intro kinds isEither
  cases left with
  | none => simp [TypeHint.either] at isEither
  | some leftKinds =>
      cases right with
      | none => simp [TypeHint.either] at isEither
      | some rightKinds =>
          obtain ⟨name, isKind, inRight⟩ := rightAdmits rightKinds rfl
          simp only [TypeHint.either, Option.some.injEq] at isEither
          exact ⟨name, isKind, isEither ▸ NameSet.mem_union.mpr (.inr inRight)⟩

variable {tree : Tree} {engine : RegexEngine}

mutual

/-- The hint of a selector admits the type of every node that the selector matches. -/
theorem hint_admits : ∀ (selector : Selector) {id : Nat},
    selector.holds tree engine id = true → Admits selector.hint (tree.kind? id)
  | .atom _ (.identifier name), id, holds => by
      intro kinds hinted
      simp only [Selector.holds, Atom.verdict, Verdict.plain, beq_iff_eq] at holds
      simp only [hint, Option.some.injEq] at hinted
      exact ⟨name, holds, hinted ▸ List.mem_singleton_self name⟩
  | .atom _ .wildcard, _, _ | .atom _ (.field _), _, _ | .atom _ (.attribute _ _), _, _ => by
      intro kinds hinted
      simp [hint] at hinted
  | .joined _ .child _ right, id, holds => by
      rw [Selector.holds, Bool.and_eq_true] at holds
      rw [hint]
      exact hint_admits right holds.1
  | .joined _ .descendant _ right, id, holds => by
      rw [Selector.holds, Bool.and_eq_true] at holds
      rw [hint]
      exact hint_admits right holds.1
  | .compound _ members, id, holds => by
      rw [Selector.holds] at holds
      rw [hint]
      exact hintOfAll_admits members holds
  | .union _ members, id, holds => by
      rw [Selector.holds] at holds
      rw [hint]
      exact hintOfAny_admits members holds

theorem hintOfAll_admits : ∀ (members : List Selector) {id : Nat},
    allHold tree engine members id = true → Admits (hintOfAll members) (tree.kind? id)
  | [], _, _ => by
      intro kinds hinted
      simp [hintOfAll] at hinted
  | member :: rest, id, holds => by
      rw [allHold, Bool.and_eq_true] at holds
      rw [hintOfAll]
      exact (hint_admits member holds.1).both (hintOfAll_admits rest holds.2)

theorem hintOfAny_admits : ∀ (members : List Selector) {id : Nat},
    anyHolds tree engine members id = true → Admits (hintOfAny members) (tree.kind? id)
  | [], _, holds => by simp [anyHolds] at holds
  | member :: rest, id, holds => by
      rw [anyHolds, Bool.or_eq_true] at holds
      rw [hintOfAny]
      rcases holds with first | further
      · exact (hint_admits member first).either_left _
      · exact (hintOfAny_admits rest further).either_right _

end

end Selector

/-! ### Trying only the hinted nodes -/

/-- The nodes whose type is one of the given ones, in document order. -/
def Tree.idsOfKinds (tree : Tree) (kinds : NameSet) : List Nat :=
  tree.nodeIds.filter fun id => (tree.kind? id).any kinds.contains

namespace Selector

/-- A selector with a hint matches only nodes of the types in it, so it is enough to try it on those. -/
theorem hint_sound (tree : Tree) (engine : RegexEngine) {selector : Selector} {kinds : NameSet}
    (hinted : selector.hint = some kinds) :
    (∀ id, selector.holds tree engine id = true →
        ∃ kind, tree.kind? id = some kind ∧ kind ∈ kinds) ∧
      (tree.idsOfKinds kinds).filter (selector.holds tree engine)
        = tree.nodeIds.filter (selector.holds tree engine) ∧
      (kinds = [] → ∀ id, selector.holds tree engine id = false) := by
  have named : ∀ id, selector.holds tree engine id = true →
      ∃ kind, tree.kind? id = some kind ∧ kind ∈ kinds :=
    fun id holds => hint_admits selector holds kinds hinted
  refine ⟨named, ?_, ?_⟩
  · rw [Tree.idsOfKinds, List.filter_filter]
    refine List.filter_congr fun id _ => ?_
    cases holds : selector.holds tree engine id with
    | false => rw [Bool.false_and]
    | true =>
        obtain ⟨kind, isKind, member⟩ := named id holds
        rw [Bool.true_and, isKind, Option.any_some]
        exact List.contains_iff_mem.mpr member
  · rintro rfl id
    refine Bool.eq_false_iff.mpr fun holds => ?_
    obtain ⟨_, _, member⟩ := named id holds
    exact absurd member List.not_mem_nil

/-- Unions within a compound, beside members without a hint. An empty union adds no type, and the two unions
have one type in common. -/
theorem hint_sound_nested :
    ∃ tree selector,
      Tree.ofJson (.object [("type", .string "A"), ("in", .object [("type", .string "B")])])
        = .ok tree ∧
      selector = Selector.compound false
        [.compound false [], .atom true .wildcard,
          .union false [.atom false (.identifier "B"), .union false [],
            .joined false .child (.atom false .wildcard) (.atom false (.identifier "C"))],
          .union true [.atom false (.identifier "D"), .atom false (.identifier "B")]] ∧
      selector.hint = some ["B"] ∧
      (tree.idsOfKinds ["B"]).filter (selector.holds tree .standard)
        = tree.nodeIds.filter (selector.holds tree .standard) ∧
      tree.nodeIds.filter (selector.holds tree .standard) = [1] := by
  refine ⟨_, _, rfl, rfl, ?_, ?_, ?_⟩
  · decide
  · exact (hint_sound _ .standard (by decide)).2.1
  · rfl

end Selector

end TreeLint
