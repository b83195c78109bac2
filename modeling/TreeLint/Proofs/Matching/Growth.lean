import TreeLint.Proofs.Matching.Memory
import TreeLint.Proofs.Tree.Ancestry

/-!
Contract: what matching writes into the memory of a traversal.

Owns:
- `Selector.parts`, all parts of a term with the places where they stand, and the places from which ancestors are
  searched for;
- `Memo.Grows`, by which a memory only gains entries, at given places and for nodes below a bound, and as many
  as terms are decided;
- `Matcher.decideTerm` and `Matcher.searchAbove`, what matching does where it finds no answer in memory;
- the growth that each operation of the matcher causes, from any memory. While an answer is worked out, its own
  entry is not written.

Does not own: which answers are written, and sequences of calls.
-/

set_option autoImplicit false

namespace TreeLint

/-! ### Parts of a term -/

namespace Selector

mutual

/-- The parts of a term that stands at a place, with their places; the first one is the term itself. -/
def parts : Selector → Place → List (Place × Selector)
  | .atom marked condition, place => [(place, .atom marked condition)]
  | .joined marked combinator left right, place =>
      (place, .joined marked combinator left right)
        :: (parts left (place.child 0) ++ parts right (place.child 1))
  | .compound marked members, place => (place, .compound marked members) :: partsFrom members place 0
  | .union marked members, place => (place, .union marked members) :: partsFrom members place 0

/-- The parts of the members from number `index` on of a term that stands at a place. -/
def partsFrom : List Selector → Place → (index : Nat) → List (Place × Selector)
  | [], _, _ => []
  | member :: rest, place, index => parts member (place.child index) ++ partsFrom rest place (index + 1)

end

theorem parts_eq (selector : Selector) (place : Place) :
    selector.parts place = (place, selector) :: partsFrom selector.children place 0 := by
  cases selector <;> simp [parts, partsFrom, children]

theorem partsFrom_subset_parts (selector : Selector) (place : Place) :
    partsFrom selector.children place 0 ⊆ selector.parts place := by
  rw [parts_eq]
  exact List.subset_cons_self _ _

theorem parts_subset_partsFrom {members : List Selector} {member : Selector} (number : Nat)
    (isMember : members[number]? = some member) (place : Place) (first : Nat) :
    member.parts (place.child (first + number)) ⊆ partsFrom members place first := by
  induction members generalizing number first with
  | nil => simp at isMember
  | cons head rest inductionHypothesis =>
      rw [partsFrom]
      cases number with
      | zero =>
          obtain rfl := Option.some.inj isMember
          exact List.subset_append_left _ _
      | succ further =>
          rw [Nat.add_succ, ← Nat.succ_add]
          exact List.subset_append_of_subset_right _ (inductionHypothesis further isMember (first + 1))

mutual

theorem length_le_of_mem_parts : ∀ (selector : Selector) {place : Place} {entry : Place × Selector},
    entry ∈ selector.parts place → place.steps.length ≤ entry.1.steps.length
  | .atom _ _, place, entry, member => by
      rw [parts, List.mem_singleton] at member
      exact Nat.le_of_eq (by rw [member])
  | .joined _ _ left right, place, entry, member => by
      rw [parts, List.mem_cons, List.mem_append] at member
      rcases member with rfl | inLeft | inRight
      · exact Nat.le_refl _
      · exact Nat.le_of_succ_le (length_le_of_mem_parts left inLeft)
      · exact Nat.le_of_succ_le (length_le_of_mem_parts right inRight)
  | .compound _ members, place, entry, member => by
      rw [parts, List.mem_cons] at member
      rcases member with rfl | further
      · exact Nat.le_refl _
      · exact Nat.le_of_lt (length_lt_of_mem_partsFrom members further)
  | .union _ members, place, entry, member => by
      rw [parts, List.mem_cons] at member
      rcases member with rfl | further
      · exact Nat.le_refl _
      · exact Nat.le_of_lt (length_lt_of_mem_partsFrom members further)

/-- The parts of the members of a term stand below it. -/
theorem length_lt_of_mem_partsFrom : ∀ (members : List Selector) {place : Place} {index : Nat}
    {entry : Place × Selector},
    entry ∈ partsFrom members place index → place.steps.length < entry.1.steps.length
  | [], _, _, _, member => by simp [partsFrom] at member
  | first :: rest, place, index, entry, member => by
      rw [partsFrom, List.mem_append] at member
      rcases member with inFirst | further
      · exact length_le_of_mem_parts first inFirst
      · exact length_lt_of_mem_partsFrom rest further

end

end Selector

/-- The place of one of the parts. -/
def StandsAt (parts : List (Place × Selector)) (place : Place) : Prop := ∃ part, (place, part) ∈ parts

/-- The place of the left side of one of the parts that are joined as descendants. -/
def SearchedFrom (parts : List (Place × Selector)) (place : Place) : Prop :=
  ∃ joined marked left right,
    (joined, Selector.joined marked .descendant left right) ∈ parts ∧ place = joined.child 0

theorem StandsAt.mono {parts others : List (Place × Selector)} {place : Place}
    (stands : StandsAt parts place) (within : parts ⊆ others) : StandsAt others place := by
  obtain ⟨part, member⟩ := stands
  exact ⟨part, within member⟩

theorem SearchedFrom.mono {parts others : List (Place × Selector)} {place : Place}
    (searched : SearchedFrom parts place) (within : parts ⊆ others) : SearchedFrom others place := by
  obtain ⟨joined, marked, left, right, member, isLeft⟩ := searched
  exact ⟨joined, marked, left, right, within member, isLeft⟩

/-- No member of a term stands at the place of the term. -/
theorem not_standsAt_partsFrom {members : List Selector} {place : Place} {index : Nat} :
    ¬ StandsAt (Selector.partsFrom members place index) place := by
  rintro ⟨part, member⟩
  exact Nat.lt_irrefl _ (Selector.length_lt_of_mem_partsFrom members member)

/-! ### Growth of a memory -/

section Table

variable {earlier later : Std.HashMap (Place × Nat) Bool} {key own : Place × Nat}

/-- An answer is the same in a later table if it is kept there and not gained. -/
theorem Memo.table_untouched (kept : ∀ {known : Bool}, earlier[key]? = some known → later[key]? = some known)
    (notGained : key ∈ later → key ∈ earlier) : later[key]? = earlier[key]? := by
  cases found : earlier[key]? with
  | some known => exact kept found
  | none =>
      refine Std.HashMap.getElem?_eq_none fun member => ?_
      have old := notGained member
      rw [Std.HashMap.mem_iff_isSome_getElem?, found] at old
      exact Bool.noConfusion old

/-- A new entry leaves the others as they are. -/
theorem Memo.table_insert_kept (answer : Bool) (fresh : own ∉ later) {known : Bool}
    (found : later[key]? = some known) : (later.insert own answer)[key]? = some known := by
  rw [Std.HashMap.getElem?_insert, if_neg, found]
  rintro same
  rw [← beq_iff_eq.mp same] at found
  exact fresh (Std.HashMap.mem_iff_isSome_getElem?.mpr (by rw [found]; rfl))

end Table

/-- The later memory has all entries of the earlier one. Those about nodes that it has gained are at direct places,
those about ancestors at ancestor places, all for nodes below a bound; and a term has been decided once for each
that it has gained about a node. -/
structure Memo.Grows (direct ancestor : Place → Prop) (bound : Nat) (earlier later : Memo) : Prop where
  direct_kept : ∀ {key : Place × Nat} {known : Bool},
    earlier.direct[key]? = some known → later.direct[key]? = some known
  ancestor_kept : ∀ {key : Place × Nat} {known : Bool},
    earlier.ancestor[key]? = some known → later.ancestor[key]? = some known
  direct_gained : ∀ {key : Place × Nat}, key ∈ later.direct →
    key ∈ earlier.direct ∨ direct key.1 ∧ key.2 < bound
  ancestor_gained : ∀ {key : Place × Nat}, key ∈ later.ancestor →
    key ∈ earlier.ancestor ∨ ancestor key.1 ∧ key.2 < bound
  decided : later.decisions + earlier.direct.size = earlier.decisions + later.direct.size

namespace Memo.Grows

variable {direct ancestor : Place → Prop} {bound : Nat} {earlier between later : Memo}

theorem of_tables (sameDirect : later.direct = earlier.direct)
    (sameAncestor : later.ancestor = earlier.ancestor)
    (sameDecisions : later.decisions = earlier.decisions) :
    Grows direct ancestor bound earlier later where
  direct_kept found := sameDirect ▸ found
  ancestor_kept found := sameAncestor ▸ found
  direct_gained member := .inl (sameDirect ▸ member)
  ancestor_gained member := .inl (sameAncestor ▸ member)
  decided := by rw [sameDirect, sameDecisions]

theorem trans (first : Grows direct ancestor bound earlier between)
    (second : Grows direct ancestor bound between later) : Grows direct ancestor bound earlier later where
  direct_kept found := second.direct_kept (first.direct_kept found)
  ancestor_kept found := second.ancestor_kept (first.ancestor_kept found)
  direct_gained member := (second.direct_gained member).elim first.direct_gained .inr
  ancestor_gained member := (second.ancestor_gained member).elim first.ancestor_gained .inr
  decided := by
    have gainedFirst := first.decided
    have gainedSecond := second.decided
    omega

theorem mono (grows : Grows direct ancestor bound earlier later) {direct' ancestor' : Place → Prop}
    {bound' : Nat} (directs : ∀ place, direct place → direct' place)
    (ancestors : ∀ place, ancestor place → ancestor' place) (bounds : bound ≤ bound') :
    Grows direct' ancestor' bound' earlier later where
  direct_kept := grows.direct_kept
  ancestor_kept := grows.ancestor_kept
  direct_gained member := (grows.direct_gained member).imp_right fun gained =>
    ⟨directs _ gained.1, Nat.lt_of_lt_of_le gained.2 bounds⟩
  ancestor_gained member := (grows.ancestor_gained member).imp_right fun gained =>
    ⟨ancestors _ gained.1, Nat.lt_of_lt_of_le gained.2 bounds⟩
  decided := grows.decided

/-- An entry about a node at a place that is not given is left as it is. -/
theorem direct_untouched (grows : Grows direct ancestor bound earlier later) {key : Place × Nat}
    (apart : ¬ (direct key.1 ∧ key.2 < bound)) : later.direct[key]? = earlier.direct[key]? :=
  table_untouched grows.direct_kept fun member => (grows.direct_gained member).resolve_right apart

/-- An entry about ancestors at a place that is not given is left as it is. -/
theorem ancestor_untouched (grows : Grows direct ancestor bound earlier later) {key : Place × Nat}
    (apart : ¬ (ancestor key.1 ∧ key.2 < bound)) : later.ancestor[key]? = earlier.ancestor[key]? :=
  table_untouched grows.ancestor_kept fun member => (grows.ancestor_gained member).resolve_right apart

theorem not_mem_direct (grows : Grows direct ancestor bound earlier later) (key : Place × Nat)
    (apart : ¬ (direct key.1 ∧ key.2 < bound)) (absent : earlier.direct[key]? = none) :
    key ∉ later.direct := by
  rw [Std.HashMap.mem_iff_isSome_getElem?, grows.direct_untouched apart, absent]
  exact Bool.false_ne_true

theorem not_mem_ancestor (grows : Grows direct ancestor bound earlier later) (key : Place × Nat)
    (apart : ¬ (ancestor key.1 ∧ key.2 < bound)) (absent : earlier.ancestor[key]? = none) :
    key ∉ later.ancestor := by
  rw [Std.HashMap.mem_iff_isSome_getElem?, grows.ancestor_untouched apart, absent]
  exact Bool.false_ne_true

variable {place : Place} {id : Nat}

/-- A decision that was counted before it was made gains its own entry, if that has not been written yet. -/
theorem insert_direct (answer : Bool)
    (grows : Grows direct ancestor bound { earlier with decisions := earlier.decisions + 1 } between)
    (fresh : (place, id) ∉ between.direct) (own : direct place) (bounded : id < bound) :
    Grows direct ancestor bound earlier
      { between with direct := between.direct.insert (place, id) answer } where
  direct_kept found := table_insert_kept answer fresh (grows.direct_kept found)
  ancestor_kept := grows.ancestor_kept
  direct_gained {key} member := by
    rcases Std.HashMap.mem_insert.mp member with same | old
    · rw [← beq_iff_eq.mp same]
      exact .inr ⟨own, bounded⟩
    · exact grows.direct_gained old
  ancestor_gained := grows.ancestor_gained
  decided := by
    have counted := grows.decided
    rw [Std.HashMap.size_insert, if_neg fresh]
    simp only at counted ⊢
    omega

theorem insert_ancestor (answer : Bool) (grows : Grows direct ancestor bound earlier between)
    (fresh : (place, id) ∉ between.ancestor) (own : ancestor place) (bounded : id < bound) :
    Grows direct ancestor bound earlier
      { between with ancestor := between.ancestor.insert (place, id) answer } where
  direct_kept := grows.direct_kept
  ancestor_kept found := table_insert_kept answer fresh (grows.ancestor_kept found)
  direct_gained := grows.direct_gained
  ancestor_gained {key} member := by
    rcases Std.HashMap.mem_insert.mp member with same | old
    · rw [← beq_iff_eq.mp same]
      exact .inr ⟨own, bounded⟩
    · exact grows.ancestor_gained old
  decided := grows.decided

end Memo.Grows

namespace Matcher

/-- From any memory, if the computation returns, then the memory has grown as given. -/
def Grows {α : Type} (direct ancestor : Place → Prop) (bound : Nat) (computation : Matcher α) : Prop :=
  ∀ (memo after : Memo) (answer : α), computation.run memo = .ok (answer, after) →
    Memo.Grows direct ancestor bound memo after

section Running

variable {α β : Type} {direct ancestor : Place → Prop} {bound : Nat}

theorem exists_of_run_bind {first : Matcher α} {next : α → Matcher β} {memo after : Memo} {answer : β}
    (runs : (first >>= next).run memo = .ok (answer, after)) :
    ∃ middle between, first.run memo = .ok (middle, between) ∧
      (next middle).run between = .ok (answer, after) := by
  rw [StateT.run_bind] at runs
  cases ran : first.run memo with
  | error fault =>
      rw [ran] at runs
      contradiction
  | ok outcome =>
      rw [ran] at runs
      exact ⟨outcome.1, outcome.2, rfl, runs⟩

theorem grows_pure (answer : α) : Grows direct ancestor bound (pure answer) := by
  intro memo after _ runs
  obtain ⟨_, rfl⟩ := Prod.mk.inj (Except.ok.inj runs)
  exact .of_tables rfl rfl rfl

theorem Grows.bind {first : Matcher α} {next : α → Matcher β}
    (firstGrows : Grows direct ancestor bound first)
    (nextGrows : ∀ middle, Grows direct ancestor bound (next middle)) :
    Grows direct ancestor bound (first >>= next) := by
  intro memo after answer runs
  obtain ⟨middle, between, firstRuns, nextRuns⟩ := exists_of_run_bind runs
  exact (firstGrows _ _ _ firstRuns).trans (nextGrows middle _ _ _ nextRuns)

theorem Grows.ite {first second third : Matcher Bool} (firstGrows : Grows direct ancestor bound first)
    (secondGrows : Grows direct ancestor bound second) (thirdGrows : Grows direct ancestor bound third) :
    Grows direct ancestor bound (do if ← first then second else third) :=
  firstGrows.bind fun
    | true => secondGrows
    | false => thirdGrows

theorem Grows.mono {computation : Matcher α} (grows : Grows direct ancestor bound computation)
    {direct' ancestor' : Place → Prop} {bound' : Nat} (directs : ∀ place, direct place → direct' place)
    (ancestors : ∀ place, ancestor place → ancestor' place) (bounds : bound ≤ bound') :
    Grows direct' ancestor' bound' computation :=
  fun memo after answer runs => (grows memo after answer runs).mono directs ancestors bounds

/-- The growth by some parts is growth by any list of parts that has them. -/
theorem Grows.widen {computation : Matcher α} {stand search parts : List (Place × Selector)}
    (grows : Grows (StandsAt stand) (SearchedFrom search) bound computation)
    (standsWithin : stand ⊆ parts) {parts' : List (Place × Selector)} (searchWithin : search ⊆ parts')
    {bound' : Nat} (bounds : bound ≤ bound') :
    Grows (StandsAt parts) (SearchedFrom parts') bound' computation :=
  grows.mono (fun _ stands => stands.mono standsWithin) (fun _ searched => searched.mono searchWithin)
    bounds

end Running

/-! ### Growth by the two tables -/

section Tables

variable {direct ancestor : Place → Prop} {place : Place} {id : Nat} {decision : Matcher Bool}
  {memo after : Memo} {answer : Bool}

theorem exists_of_remember_run_new (found : memo.direct[(place, id)]? = none)
    (runs : (remember place id decision).run memo = .ok (answer, after)) :
    ∃ between, decision.run memo = .ok (answer, between) ∧
      after = { between with direct := between.direct.insert (place, id) answer } := by
  cases decided : decision.run memo with
  | error fault =>
      simp only [remember, StateT.run_bind, StateT.run_get, pure_bind, found, decided] at runs
      contradiction
  | ok outcome =>
      rw [remember_run_new found decided] at runs
      obtain ⟨rfl, rfl⟩ := Prod.mk.inj (Except.ok.inj runs)
      exact ⟨outcome.2, rfl, rfl⟩

theorem exists_of_rememberAncestor_run_new (found : memo.ancestor[(place, id)]? = none)
    (runs : (rememberAncestor place id decision).run memo = .ok (answer, after)) :
    ∃ between, decision.run memo = .ok (answer, between) ∧
      after = { between with ancestor := between.ancestor.insert (place, id) answer } := by
  cases decided : decision.run memo with
  | error fault =>
      simp only [rememberAncestor, StateT.run_bind, StateT.run_get, pure_bind, found, decided] at runs
      contradiction
  | ok outcome =>
      rw [rememberAncestor_run_new found decided] at runs
      obtain ⟨rfl, rfl⟩ := Prod.mk.inj (Except.ok.inj runs)
      exact ⟨outcome.2, rfl, rfl⟩

/-- Counting and remembering a decision gains an entry at a place that the decision itself has not written. -/
theorem grows_remember {inner : Place → Prop} (decides : Grows inner ancestor (id + 1) decision)
    (within : ∀ part, inner part → direct part) (own : direct place) (apart : ¬ inner place) :
    Grows direct ancestor (id + 1) (remember place id (counted decision)) := by
  intro memo after answer runs
  cases found : memo.direct[(place, id)]? with
  | some known =>
      rw [remember_run_known found] at runs
      obtain ⟨_, rfl⟩ := Prod.mk.inj (Except.ok.inj runs)
      exact .of_tables rfl rfl rfl
  | none =>
      obtain ⟨between, decided, rfl⟩ := exists_of_remember_run_new found runs
      have grown := decides _ _ _ decided
      have fresh := grown.not_mem_direct (place, id) (fun gained => apart gained.1) found
      exact (grown.mono within (fun _ searched => searched) (Nat.le_refl _)).insert_direct answer fresh
        own (Nat.lt_succ_self id)

/-- Remembering an answer about ancestors gains an entry for a node above which the answer was found. -/
theorem grows_rememberAncestor (decides : Grows direct ancestor id decision) (own : ancestor place) :
    Grows direct ancestor (id + 1) (rememberAncestor place id decision) := by
  intro memo after answer runs
  cases found : memo.ancestor[(place, id)]? with
  | some known =>
      rw [rememberAncestor_run_known found] at runs
      obtain ⟨_, rfl⟩ := Prod.mk.inj (Except.ok.inj runs)
      exact .of_tables rfl rfl rfl
  | none =>
      obtain ⟨between, decided, rfl⟩ := exists_of_rememberAncestor_run_new found runs
      have grown := decides _ _ _ decided
      have fresh := grown.not_mem_ancestor (place, id) (fun gained => Nat.lt_irrefl _ gained.2)
        found
      exact (grown.mono (fun _ direct => direct) (fun _ searched => searched)
        (Nat.le_succ id)).insert_ancestor answer fresh own (Nat.lt_succ_self id)

end Tables

/-! ### What is done where there is no answer in memory -/

def decideTerm (tree : Tree) (engine : RegexEngine) : Selector → Place → Nat → Matcher Bool
  | .atom _ condition, _, id => decideAtom tree engine condition id
  | .joined _ .child left right, place, id => do
      if ← isMatch tree engine right (place.child 1) id then
        match tree.parent? id with
        | some parent => isMatch tree engine left (place.child 0) parent
        | none => return false
      else return false
  | .joined _ .descendant left right, place, id => do
      if ← isMatch tree engine right (place.child 1) id then
        climb (place.child 0) (isMatch tree engine left (place.child 0)) id (tree.ancestors id)
      else return false
  | .compound _ members, place, id => allMatch tree engine members place 0 id
  | .union _ members, place, id => anyMatch tree engine members place 0 id

def searchAbove (place : Place) (test : Nat → Matcher Bool) : (above : List Nat) → Matcher Bool
  | [] => return false
  | parent :: rest => do if ← test parent then return true else climb place test parent rest

variable {tree : Tree} {engine : RegexEngine}

/-- A term is decided on a node where its answer is not in memory, and only there. -/
theorem isMatch_eq : ∀ (selector : Selector) (place : Place) (id : Nat),
    isMatch tree engine selector place id
      = remember place id (counted (decideTerm tree engine selector place id))
  | .atom _ _, _, _ | .joined _ .descendant _ _, _, _ | .compound _ _, _, _ | .union _ _, _, _ => by
      rw [isMatch, decideTerm]
  | .joined _ .child _ _, _, _ => by
      unfold isMatch decideTerm
      rfl

theorem climb_eq (place : Place) (test : Nat → Matcher Bool) (id : Nat) (above : List Nat) :
    climb place test id above = rememberAncestor place id (searchAbove place test above) := by
  cases above <;> rw [climb, searchAbove]

/-! ### Growth by the matcher -/

section Climb

variable {direct ancestor : Place → Prop} {place : Place} {test : Nat → Matcher Bool}

theorem lt_of_ancestors_cons {id parent : Nat} {rest : List Nat}
    (chain : tree.ancestors id = parent :: rest) : parent < id := by
  rw [Tree.ancestors] at chain
  split at chain
  · contradiction
  · split at chain
    · rename_i earlier
      exact (List.cons.inj chain).1 ▸ earlier
    · contradiction

/-- A search above a node writes about lower-numbered nodes only. -/
theorem grows_searchAbove (tests : ∀ id, Grows direct ancestor (id + 1) (test id))
    (own : ancestor place) : ∀ (above : List Nat) (id : Nat), tree.ancestors id = above →
      Grows direct ancestor id (searchAbove place test above) := by
  intro above
  induction above with
  | nil => exact fun id chain => grows_pure false
  | cons parent rest inductionHypothesis =>
      intro id chain
      have higher : Grows direct ancestor (parent + 1) (climb place test parent rest) := by
        rw [climb_eq]
        exact grows_rememberAncestor (inductionHypothesis parent (ancestors_of_cons chain)) own
      rw [searchAbove]
      exact ((tests parent).ite (grows_pure true) higher).mono (fun _ direct => direct)
        (fun _ searched => searched) (lt_of_ancestors_cons chain)

theorem grows_climb (tests : ∀ id, Grows direct ancestor (id + 1) (test id)) (own : ancestor place)
    (id : Nat) : Grows direct ancestor (id + 1) (climb place test id (tree.ancestors id)) := by
  rw [climb_eq]
  exact grows_rememberAncestor (grows_searchAbove tests own _ id rfl) own

end Climb

theorem grows_decideAtom {direct ancestor : Place → Prop} {bound : Nat} (id : Nat) :
    ∀ condition : Atom, Grows direct ancestor bound (decideAtom tree engine condition id)
  | .identifier _ | .wildcard | .field _ | .attribute _ none => grows_pure _
  | .attribute path (some test) => by
      simp only [decideAtom]
      split
      · split
        · split
          · refine Grows.bind ?_ fun _ => grows_pure _
            intro memo after _ runs
            obtain ⟨_, rfl⟩ := Prod.mk.inj (Except.ok.inj runs)
            exact .of_tables rfl rfl rfl
          · exact grows_pure _
        · exact grows_pure _
      · intro memo after _ runs
        contradiction

/-- The growth by deciding a term carries over to asking for its answer. -/
theorem grows_isMatch_of_decideTerm {selector : Selector} {place : Place} {id : Nat}
    (decides : Grows (StandsAt (Selector.partsFrom selector.children place 0))
      (SearchedFrom (selector.parts place)) (id + 1) (decideTerm tree engine selector place id)) :
    Grows (StandsAt (selector.parts place)) (SearchedFrom (selector.parts place)) (id + 1)
      (isMatch tree engine selector place id) := by
  rw [isMatch_eq]
  refine grows_remember decides (fun part inner => inner.mono ?_) ⟨selector, ?_⟩ not_standsAt_partsFrom
  · exact Selector.partsFrom_subset_parts selector place
  · rw [Selector.parts_eq]
    exact List.mem_cons_self

mutual

/-- Deciding a term writes about its proper parts, and searches from the left sides in it. A parent has a lower
number, so nothing is written about higher-numbered nodes. -/
theorem grows_decideTerm (upward : ∀ {id parent : Nat}, tree.parent? id = some parent → parent < id) :
    ∀ (selector : Selector) (place : Place) (id : Nat),
      Grows (StandsAt (Selector.partsFrom selector.children place 0))
        (SearchedFrom (selector.parts place)) (id + 1) (decideTerm tree engine selector place id)
  | .atom _ condition, place, id => by
      rw [decideTerm]
      exact grows_decideAtom id condition
  | .joined marked .child left right, place, id => by
      have inner := Selector.partsFrom_subset_parts (.joined marked .child left right) place
      have isLeft : left.parts (place.child 0) ⊆ Selector.partsFrom [left, right] place 0 :=
        Selector.parts_subset_partsFrom 0 rfl place 0
      have isRight : right.parts (place.child 1) ⊆ Selector.partsFrom [left, right] place 0 :=
        Selector.parts_subset_partsFrom 1 rfl place 0
      have onRight := grows_isMatch_of_decideTerm (grows_decideTerm upward right (place.child 1) id)
      rw [decideTerm]
      refine (onRight.widen isRight (List.Subset.trans isRight inner) (Nat.le_refl _)).ite ?_ (grows_pure false)
      split
      · rename_i parent isParent
        have onLeft :=
          grows_isMatch_of_decideTerm (grows_decideTerm upward left (place.child 0) parent)
        exact onLeft.widen isLeft (List.Subset.trans isLeft inner)
          (Nat.succ_le_succ (Nat.le_of_lt (upward isParent)))
      · exact grows_pure false
  | .joined marked .descendant left right, place, id => by
      have inner := Selector.partsFrom_subset_parts (.joined marked .descendant left right) place
      have isLeft : left.parts (place.child 0) ⊆ Selector.partsFrom [left, right] place 0 :=
        Selector.parts_subset_partsFrom 0 rfl place 0
      have isRight : right.parts (place.child 1) ⊆ Selector.partsFrom [left, right] place 0 :=
        Selector.parts_subset_partsFrom 1 rfl place 0
      have onRight := grows_isMatch_of_decideTerm (grows_decideTerm upward right (place.child 1) id)
      have onLeft := fun above =>
        grows_isMatch_of_decideTerm (grows_decideTerm upward left (place.child 0) above)
      have own : SearchedFrom (Selector.parts (.joined marked .descendant left right) place)
          (place.child 0) := by
        refine ⟨place, marked, left, right, ?_, rfl⟩
        rw [Selector.parts_eq]
        exact List.mem_cons_self
      rw [decideTerm]
      refine (onRight.widen isRight (List.Subset.trans isRight inner) (Nat.le_refl _)).ite ?_ (grows_pure false)
      exact grows_climb
        (fun above => (onLeft above).widen isLeft (List.Subset.trans isLeft inner) (Nat.le_refl _)) own id
  | .compound marked members, place, id => by
      rw [decideTerm]
      exact (grows_allMatch upward members place 0 id).widen (List.Subset.refl _)
        (Selector.partsFrom_subset_parts (.compound marked members) place) (Nat.le_refl _)
  | .union marked members, place, id => by
      rw [decideTerm]
      exact (grows_anyMatch upward members place 0 id).widen (List.Subset.refl _)
        (Selector.partsFrom_subset_parts (.union marked members) place) (Nat.le_refl _)

theorem grows_allMatch (upward : ∀ {id parent : Nat}, tree.parent? id = some parent → parent < id) :
    ∀ (members : List Selector) (place : Place) (index id : Nat),
      Grows (StandsAt (Selector.partsFrom members place index))
        (SearchedFrom (Selector.partsFrom members place index)) (id + 1)
        (allMatch tree engine members place index id)
  | [], _, _, _ => grows_pure true
  | member :: rest, place, index, id => by
      have onMember :=
        grows_isMatch_of_decideTerm (grows_decideTerm upward member (place.child index) id)
      have onRest := grows_allMatch upward rest place (index + 1) id
      have first := List.subset_append_left (member.parts (place.child index))
        (Selector.partsFrom rest place (index + 1))
      have further := List.subset_append_right (member.parts (place.child index))
        (Selector.partsFrom rest place (index + 1))
      rw [allMatch, Selector.partsFrom]
      exact (onMember.widen first first (Nat.le_refl _)).ite
        (onRest.widen further further (Nat.le_refl _)) (grows_pure false)

theorem grows_anyMatch (upward : ∀ {id parent : Nat}, tree.parent? id = some parent → parent < id) :
    ∀ (members : List Selector) (place : Place) (index id : Nat),
      Grows (StandsAt (Selector.partsFrom members place index))
        (SearchedFrom (Selector.partsFrom members place index)) (id + 1)
        (anyMatch tree engine members place index id)
  | [], _, _, _ => grows_pure false
  | member :: rest, place, index, id => by
      have onMember :=
        grows_isMatch_of_decideTerm (grows_decideTerm upward member (place.child index) id)
      have onRest := grows_anyMatch upward rest place (index + 1) id
      have first := List.subset_append_left (member.parts (place.child index))
        (Selector.partsFrom rest place (index + 1))
      have further := List.subset_append_right (member.parts (place.child index))
        (Selector.partsFrom rest place (index + 1))
      rw [anyMatch, Selector.partsFrom]
      exact (onMember.widen first first (Nat.le_refl _)).ite (grows_pure true)
        (onRest.widen further further (Nat.le_refl _))

end

/-- Asking whether a term matches a node writes about its parts. -/
theorem grows_isMatch (upward : ∀ {id parent : Nat}, tree.parent? id = some parent → parent < id)
    (selector : Selector) (place : Place) (id : Nat) :
    Grows (StandsAt (selector.parts place)) (SearchedFrom (selector.parts place)) (id + 1)
      (isMatch tree engine selector place id) :=
  grows_isMatch_of_decideTerm (grows_decideTerm upward selector place id)

/-- Searching the ancestors of a node for a term writes about lower-numbered nodes. -/
theorem grows_searchAncestors (upward : ∀ {id parent : Nat}, tree.parent? id = some parent → parent < id)
    (selector : Selector) (place : Place) (id : Nat) :
    Grows (StandsAt (selector.parts place))
      (fun searched => searched = place ∨ SearchedFrom (selector.parts place) searched) id
      (searchAbove place (isMatch tree engine selector place) (tree.ancestors id)) :=
  grows_searchAbove
    (fun above => (grows_isMatch upward selector place above).mono (fun _ stands => stands)
      (fun _ searched => .inr searched) (Nat.le_refl _))
    (.inl rfl) _ id rfl

end Matcher

end TreeLint
