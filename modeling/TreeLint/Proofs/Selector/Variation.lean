import Mathlib.Logic.Relation
import TreeLint.Proofs.Selector.Hint

/-!
Contract: selectors that differ in subject marks, and in the order and the number of times of members.

Owns:
- `Selector.Change`, one such difference anywhere in a term, and `Selector.Variants`, any number of them;
- the quantifications over members that matching and hints amount to, which depend on the members as a set only;
- the agreement of variants on every node of every tree, and on their hint.

Does not own: how variants behave in a matcher with memory.
-/

set_option autoImplicit false

namespace TreeLint

/-! ### Changes -/

namespace Selector

/-- One change to a term or to one of its parts. -/
inductive Change : Selector → Selector → Prop where
  /-- The subject mark is set or cleared. -/
  | mark (marked : Bool) (selector : Selector) : Change selector (selector.withSubject marked)
  /-- The members of a compound come in another order. -/
  | permuteAll {marked : Bool} {members others : List Selector} :
      members.Perm others → Change (.compound marked members) (.compound marked others)
  /-- The members of a union come in another order. -/
  | permuteAny {marked : Bool} {members others : List Selector} :
      members.Perm others → Change (.union marked members) (.union marked others)
  /-- A member of a compound is repeated. -/
  | repeatAll {marked : Bool} {member : Selector} {members : List Selector} :
      member ∈ members → Change (.compound marked members) (.compound marked (member :: members))
  /-- A member of a union is repeated. -/
  | repeatAny {marked : Bool} {member : Selector} {members : List Selector} :
      member ∈ members → Change (.union marked members) (.union marked (member :: members))
  | left {marked : Bool} {combinator : Combinator} {left left' : Selector} (right : Selector) :
      Change left left' → Change (.joined marked combinator left right) (.joined marked combinator left' right)
  | right {marked : Bool} {combinator : Combinator} (left : Selector) {right right' : Selector} :
      Change right right' → Change (.joined marked combinator left right) (.joined marked combinator left right')
  | memberOfAll {marked : Bool} (before : List Selector) {member member' : Selector} (after : List Selector) :
      Change member member' →
        Change (.compound marked (before ++ member :: after)) (.compound marked (before ++ member' :: after))
  | memberOfAny {marked : Bool} (before : List Selector) {member member' : Selector} (after : List Selector) :
      Change member member' →
        Change (.union marked (before ++ member :: after)) (.union marked (before ++ member' :: after))

/-- Selectors that any number of changes, made or taken back, lead from one to the other. -/
def Variants : Selector → Selector → Prop := Relation.EqvGen Change

/-- What no change alters is the same for variants. -/
theorem Variants.eq_of_kept {α : Type} {quality : Selector → α}
    (kept : ∀ {selector changed : Selector}, Change selector changed → quality selector = quality changed)
    {selector other : Selector} (variants : Variants selector other) : quality selector = quality other := by
  induction variants with
  | rel _ _ change => exact kept change
  | refl _ => rfl
  | symm _ _ _ inductionHypothesis => exact inductionHypothesis.symm
  | trans _ _ _ _ _ first second => exact first.trans second

/-! ### Members as a set -/

section Holds

variable {tree : Tree} {engine : RegexEngine}

theorem allHold_eq (members : List Selector) (id : Nat) :
    allHold tree engine members id = members.all (holds tree engine · id) := by
  induction members with
  | nil => rw [allHold, List.all_nil]
  | cons member rest inductionHypothesis => rw [allHold, List.all_cons, inductionHypothesis]

theorem anyHolds_eq (members : List Selector) (id : Nat) :
    anyHolds tree engine members id = members.any (holds tree engine · id) := by
  induction members with
  | nil => rw [anyHolds, List.any_nil]
  | cons member rest inductionHypothesis => rw [anyHolds, List.any_cons, inductionHypothesis]

theorem allHold_congr {members others : List Selector}
    (sameMembers : ∀ member, member ∈ members ↔ member ∈ others) (id : Nat) :
    allHold tree engine members id = allHold tree engine others id := by
  rw [allHold_eq, allHold_eq, Bool.eq_iff_iff]
  simp only [List.all_eq_true, sameMembers]

theorem anyHolds_congr {members others : List Selector}
    (sameMembers : ∀ member, member ∈ members ↔ member ∈ others) (id : Nat) :
    anyHolds tree engine members id = anyHolds tree engine others id := by
  rw [anyHolds_eq, anyHolds_eq, Bool.eq_iff_iff]
  simp only [List.any_eq_true, sameMembers]

theorem holds_withSubject (marked : Bool) (selector : Selector) (id : Nat) :
    (selector.withSubject marked).holds tree engine id = selector.holds tree engine id := by
  match selector with
  | .atom _ _ | .joined _ .child _ _ | .joined _ .descendant _ _ | .compound _ _ | .union _ _ =>
      rw [withSubject, holds, holds]

end Holds

end Selector

/-! ### Hints as sets -/

namespace TypeHint

/-- The hint does not leave out nodes of the type. -/
def Allows (hint : TypeHint) (kind : String) : Prop := ∀ kinds, hint = some kinds → kind ∈ kinds

theorem allows_none (kind : String) : Allows none kind := nofun

theorem allows_some {kinds : NameSet} {kind : String} : Allows (some kinds) kind ↔ kind ∈ kinds :=
  ⟨fun allows => allows kinds rfl, fun member _ same => Option.some.inj same ▸ member⟩

theorem allows_both {left right : TypeHint} {kind : String} :
    (left.both right).Allows kind ↔ left.Allows kind ∧ right.Allows kind := by
  cases left <;> cases right <;> simp [both, allows_none, allows_some, NameSet.mem_inter]

theorem allows_either {left right : TypeHint} {kind : String} :
    (left.either right).Allows kind ↔ left.Allows kind ∨ right.Allows kind := by
  cases left <;> cases right <;> simp [either, allows_none, allows_some, NameSet.mem_union]

theorem isSome_both {left right : TypeHint} :
    (left.both right).isSome = true ↔ left.isSome = true ∨ right.isSome = true := by
  cases left <;> cases right <;> simp [both]

theorem isSome_either {left right : TypeHint} :
    (left.either right).isSome = true ↔ left.isSome = true ∧ right.isSome = true := by
  cases left <;> cases right <;> simp [either]

end TypeHint

/-- Ascending sets with the same names are the same list. -/
theorem NameSet.Ascending.eq_of_mem_iff {names others : NameSet} (ascending : names.Ascending)
    (othersAscending : others.Ascending) (sameNames : ∀ name, name ∈ names ↔ name ∈ others) :
    names = others := by
  refine List.Perm.eq_of_pairwise (fun name other _ _ less greater => ?_) ascending othersAscending ?_
  · exact absurd (String.lt_trans less greater) (String.lt_irrefl name)
  · exact (List.perm_ext_iff_of_nodup ascending.nodup othersAscending.nodup).mpr sameNames

/-- Hints with ascending sets are the same if they leave out the same types. -/
theorem TypeHint.eq_of_allows_iff {hint other : TypeHint}
    (ascending : ∀ {kinds}, hint = some kinds → kinds.Ascending)
    (otherAscending : ∀ {kinds}, other = some kinds → kinds.Ascending)
    (bothHinted : hint.isSome = true ↔ other.isSome = true)
    (sameKinds : ∀ kind, hint.Allows kind ↔ other.Allows kind) : hint = other := by
  cases hint with
  | none =>
      cases other with
      | none => rfl
      | some kinds => exact absurd (bothHinted.mpr rfl) Bool.false_ne_true
  | some kinds =>
      cases other with
      | none => exact absurd (bothHinted.mp rfl) Bool.false_ne_true
      | some kinds' =>
          simp only [allows_some] at sameKinds
          rw [(ascending rfl).eq_of_mem_iff (otherAscending rfl) sameKinds]

namespace Selector

theorem hintOfAll_eq (members : List Selector) :
    hintOfAll members = (members.map hint).foldr TypeHint.both none := by
  induction members with
  | nil => rw [hintOfAll, List.map_nil, List.foldr_nil]
  | cons member rest inductionHypothesis =>
      rw [hintOfAll, List.map_cons, List.foldr_cons, inductionHypothesis]

theorem hintOfAny_eq (members : List Selector) :
    hintOfAny members = (members.map hint).foldr TypeHint.either (some []) := by
  induction members with
  | nil => rw [hintOfAny, List.map_nil, List.foldr_nil]
  | cons member rest inductionHypothesis =>
      rw [hintOfAny, List.map_cons, List.foldr_cons, inductionHypothesis]

theorem isSome_hintOfAll (members : List Selector) :
    (hintOfAll members).isSome = true ↔ ∃ member ∈ members, member.hint.isSome = true := by
  induction members with
  | nil => simp [hintOfAll]
  | cons member rest inductionHypothesis =>
      rw [hintOfAll, TypeHint.isSome_both, inductionHypothesis]
      simp only [List.mem_cons, exists_eq_or_imp]

theorem allows_hintOfAll (members : List Selector) (kind : String) :
    (hintOfAll members).Allows kind ↔ ∀ member ∈ members, member.hint.Allows kind := by
  induction members with
  | nil => simp [hintOfAll, TypeHint.allows_none]
  | cons member rest inductionHypothesis =>
      rw [hintOfAll, TypeHint.allows_both, inductionHypothesis, List.forall_mem_cons]

theorem isSome_hintOfAny (members : List Selector) :
    (hintOfAny members).isSome = true ↔ ∀ member ∈ members, member.hint.isSome = true := by
  induction members with
  | nil => simp [hintOfAny]
  | cons member rest inductionHypothesis =>
      rw [hintOfAny, TypeHint.isSome_either, inductionHypothesis, List.forall_mem_cons]

theorem allows_hintOfAny (members : List Selector) (kind : String) :
    (hintOfAny members).Allows kind ↔ ∃ member ∈ members, member.hint.Allows kind := by
  induction members with
  | nil => simp [hintOfAny, TypeHint.allows_some]
  | cons member rest inductionHypothesis =>
      rw [hintOfAny, TypeHint.allows_either, inductionHypothesis]
      simp only [List.mem_cons, exists_eq_or_imp]

theorem hintOfAll_congr {members others : List Selector}
    (sameMembers : ∀ member, member ∈ members ↔ member ∈ others) : hintOfAll members = hintOfAll others := by
  refine TypeHint.eq_of_allows_iff (hintOfAll_ascending members) (hintOfAll_ascending others) ?_ fun kind => ?_
  · simp only [isSome_hintOfAll, sameMembers]
  · simp only [allows_hintOfAll, sameMembers]

theorem hintOfAny_congr {members others : List Selector}
    (sameMembers : ∀ member, member ∈ members ↔ member ∈ others) : hintOfAny members = hintOfAny others := by
  refine TypeHint.eq_of_allows_iff (hintOfAny_ascending members) (hintOfAny_ascending others) ?_ fun kind => ?_
  · simp only [isSome_hintOfAny, sameMembers]
  · simp only [allows_hintOfAny, sameMembers]

theorem hint_withSubject (marked : Bool) (selector : Selector) :
    (selector.withSubject marked).hint = selector.hint := by
  cases selector with
  | atom _ condition => cases condition <;> simp only [withSubject, hint]
  | joined _ _ _ _ | compound _ _ | union _ _ => simp only [withSubject, hint]

/-! ### Agreement -/

theorem mem_cons_iff_of_mem {member : Selector} {members : List Selector} (isMember : member ∈ members)
    (other : Selector) : other ∈ members ↔ other ∈ member :: members := by
  rw [List.mem_cons]
  exact ⟨.inr, fun found => found.elim (fun same => same ▸ isMember) id⟩

/-- No change alters which nodes match. -/
theorem Change.holds_eq {tree : Tree} {engine : RegexEngine} {selector changed : Selector}
    (change : Change selector changed) (id : Nat) :
    selector.holds tree engine id = changed.holds tree engine id := by
  induction change generalizing id with
  | mark marked selector => exact (holds_withSubject marked selector id).symm
  | permuteAll permuted =>
      rw [holds, holds]
      exact allHold_congr (fun member => permuted.mem_iff) id
  | permuteAny permuted =>
      rw [holds, holds]
      exact anyHolds_congr (fun member => permuted.mem_iff) id
  | repeatAll isMember =>
      rw [holds, holds]
      exact allHold_congr (mem_cons_iff_of_mem isMember) id
  | repeatAny isMember =>
      rw [holds, holds]
      exact anyHolds_congr (mem_cons_iff_of_mem isMember) id
  | @left marked combinator left left' right _ inductionHypothesis =>
      have sameLeft : left.holds tree engine = left'.holds tree engine := funext inductionHypothesis
      cases combinator <;> rw [holds, holds, sameLeft]
  | @right marked combinator left right right' _ inductionHypothesis =>
      cases combinator <;> rw [holds, holds, inductionHypothesis]
  | memberOfAll before after _ inductionHypothesis =>
      rw [holds, holds, allHold_eq, allHold_eq]
      simp only [List.all_append, List.all_cons, inductionHypothesis]
  | memberOfAny before after _ inductionHypothesis =>
      rw [holds, holds, anyHolds_eq, anyHolds_eq]
      simp only [List.any_append, List.any_cons, inductionHypothesis]

/-- No change alters the types that a node may have. -/
theorem Change.hint_eq {selector changed : Selector} (change : Change selector changed) :
    selector.hint = changed.hint := by
  induction change with
  | mark marked selector => exact (hint_withSubject marked selector).symm
  | permuteAll permuted =>
      rw [hint, hint]
      exact hintOfAll_congr fun member => permuted.mem_iff
  | permuteAny permuted =>
      rw [hint, hint]
      exact hintOfAny_congr fun member => permuted.mem_iff
  | repeatAll isMember =>
      rw [hint, hint]
      exact hintOfAll_congr (mem_cons_iff_of_mem isMember)
  | repeatAny isMember =>
      rw [hint, hint]
      exact hintOfAny_congr (mem_cons_iff_of_mem isMember)
  | left _ _ _ => rw [hint, hint]
  | right _ _ inductionHypothesis => rw [hint, hint, inductionHypothesis]
  | memberOfAll before after _ inductionHypothesis =>
      rw [hint, hint, hintOfAll_eq, hintOfAll_eq]
      simp only [List.map_append, List.map_cons, inductionHypothesis]
  | memberOfAny before after _ inductionHypothesis =>
      rw [hint, hint, hintOfAny_eq, hintOfAny_eq]
      simp only [List.map_append, List.map_cons, inductionHypothesis]

theorem Variants.holds_eq {selector other : Selector} (variants : Variants selector other) (tree : Tree)
    (engine : RegexEngine) (id : Nat) : selector.holds tree engine id = other.holds tree engine id :=
  variants.eq_of_kept fun change => change.holds_eq id

theorem Variants.hint_eq {selector other : Selector} (variants : Variants selector other) :
    selector.hint = other.hint :=
  variants.eq_of_kept Change.hint_eq

end Selector

end TreeLint
