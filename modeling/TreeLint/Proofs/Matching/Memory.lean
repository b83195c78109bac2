import TreeLint.Matching.Memo
import TreeLint.Proofs.Selector.WellFormed

/-!
Contract: the memory of a traversal agrees with what selectors mean.

Owns:
- `Place.selector?`, the term that stands at a place of a list of selectors;
- `Memo.Sound`, the invariant that every answer in memory is the right one;
- `Matcher.Answers`, by which a computation returns a given answer from any memory with an invariant and
  leaves such a memory behind;
- the answers of the matcher's operations, each from the answers of the operations that it calls.

Does not own: sequences of calls, and trees of documents. The laws hold of every array of nodes.
-/

set_option autoImplicit false

namespace TreeLint

def Place.selector? (roots : List Selector) (place : Place) : Option Selector :=
  place.steps.foldr (fun index above => above.bind fun selector => selector.children[index]?)
    roots[place.root]?

section Places

variable {roots : List Selector} {place : Place} {selector : Selector}

/-- A part of the term at a place stands at a place below it. -/
theorem Place.selector?_child (located : place.selector? roots = some selector) (index : Nat) :
    (place.child index).selector? roots = selector.children[index]? := by
  change (place.selector? roots).bind _ = _
  rw [located, Option.bind_some]

end Places

/-- Every answer in memory is the right one for the term at its place. -/
structure Memo.Sound (tree : Tree) (engine : RegexEngine) (roots : List Selector) (memo : Memo) :
    Prop where
  /-- An answer about a node says whether the term matches it. -/
  direct : ∀ {place : Place} {id : Nat} {known : Bool}, memo.direct[(place, id)]? = some known →
    ∃ selector, place.selector? roots = some selector ∧ known = selector.holds tree engine id
  /-- An answer about the ancestors of a node says whether the term matches one of them. -/
  ancestor : ∀ {place : Place} {id : Nat} {known : Bool},
    memo.ancestor[(place, id)]? = some known →
      ∃ selector, place.selector? roots = some selector ∧
        known = (tree.ancestors id).any (selector.holds tree engine)

/-- From every memory with the invariant, the computation returns the answer and a memory with the
invariant. -/
def Matcher.Answers {α : Type} (invariant : Memo → Prop) (computation : Matcher α) (answer : α) :
    Prop :=
  ∀ memo, invariant memo → ∃ after, computation.run memo = .ok (answer, after) ∧ invariant after

namespace Memo.Sound

variable {tree : Tree} {engine : RegexEngine} {roots : List Selector} {memo : Memo}

theorem empty : Memo.Sound tree engine roots .empty where
  direct := by simp [Memo.empty]
  ancestor := by simp [Memo.empty]

/-- What is counted and reported beside the two tables does not matter. -/
theorem of_tables {after : Memo} (sound : memo.Sound tree engine roots)
    (sameDirect : after.direct = memo.direct) (sameAncestor : after.ancestor = memo.ancestor) :
    after.Sound tree engine roots where
  direct found := sound.direct (sameDirect ▸ found)
  ancestor found := sound.ancestor (sameAncestor ▸ found)

variable {place : Place} {selector : Selector}

theorem insert_direct (sound : memo.Sound tree engine roots)
    (located : place.selector? roots = some selector) (id : Nat) :
    Memo.Sound tree engine roots
      { memo with direct := memo.direct.insert (place, id) (selector.holds tree engine id) } where
  direct := by
    intro place' id' known found
    rw [Std.HashMap.getElem?_insert] at found
    split at found
    · rename_i same
      simp only [beq_iff_eq, Prod.mk.injEq] at same
      rcases same with ⟨rfl, rfl⟩
      exact ⟨selector, located, (Option.some.inj found).symm⟩
    · exact sound.direct found
  ancestor := sound.ancestor

theorem insert_ancestor (sound : memo.Sound tree engine roots)
    (located : place.selector? roots = some selector) (id : Nat) :
    Memo.Sound tree engine roots
      { memo with
        ancestor := memo.ancestor.insert (place, id)
          ((tree.ancestors id).any (selector.holds tree engine)) } where
  direct := sound.direct
  ancestor := by
    intro place' id' known found
    rw [Std.HashMap.getElem?_insert] at found
    split at found
    · rename_i same
      simp only [beq_iff_eq, Prod.mk.injEq] at same
      rcases same with ⟨rfl, rfl⟩
      exact ⟨selector, located, (Option.some.inj found).symm⟩
    · exact sound.ancestor found

theorem direct_eq (sound : memo.Sound tree engine roots)
    (located : place.selector? roots = some selector) {id : Nat} {known : Bool}
    (found : memo.direct[(place, id)]? = some known) : known = selector.holds tree engine id := by
  obtain ⟨other, otherLocated, isAnswer⟩ := sound.direct found
  rw [located, Option.some.injEq] at otherLocated
  rwa [otherLocated]

theorem ancestor_eq (sound : memo.Sound tree engine roots)
    (located : place.selector? roots = some selector) {id : Nat} {known : Bool}
    (found : memo.ancestor[(place, id)]? = some known) :
    known = (tree.ancestors id).any (selector.holds tree engine) := by
  obtain ⟨other, otherLocated, isAnswer⟩ := sound.ancestor found
  rw [located, Option.some.injEq] at otherLocated
  rwa [otherLocated]

end Memo.Sound

namespace Matcher

/-! ### Running computations -/

section Running

variable {α β : Type} {invariant : Memo → Prop}

theorem answers_pure (answer : α) : Answers invariant (pure answer) answer :=
  fun memo holds => ⟨memo, rfl, holds⟩

theorem Answers.bind {first : Matcher α} {next : α → Matcher β} {middle : α} {answer : β}
    (firstAnswers : Answers invariant first middle)
    (nextAnswers : Answers invariant (next middle) answer) :
    Answers invariant (first >>= next) answer := by
  intro memo holds
  obtain ⟨between, firstRuns, holdsBetween⟩ := firstAnswers memo holds
  obtain ⟨after, nextRuns, holdsAfter⟩ := nextAnswers between holdsBetween
  refine ⟨after, ?_, holdsAfter⟩
  rw [StateT.run_bind, firstRuns]
  exact nextRuns

theorem Answers.and {first second : Matcher Bool} {answer answer' : Bool}
    (firstAnswers : Answers invariant first answer)
    (secondAnswers : Answers invariant second answer') :
    Answers invariant (do if ← first then second else return false) (answer && answer') := by
  apply firstAnswers.bind
  cases answer with
  | true => exact secondAnswers
  | false => exact answers_pure false

theorem Answers.or {first second : Matcher Bool} {answer answer' : Bool}
    (firstAnswers : Answers invariant first answer)
    (secondAnswers : Answers invariant second answer') :
    Answers invariant (do if ← first then return true else second) (answer || answer') := by
  apply firstAnswers.bind
  cases answer with
  | true => exact answers_pure true
  | false => exact secondAnswers

theorem answers_modify {change : Memo → Memo}
    (preserved : ∀ memo, invariant memo → invariant (change memo)) :
    Answers invariant (modify change) () :=
  fun memo holds => ⟨change memo, rfl, preserved memo holds⟩

end Running

/-! ### Running the two tables -/

section Tables

variable {place : Place} {id : Nat} {known answer : Bool} {memo between : Memo}
  {decision : Matcher Bool}

theorem remember_run_known (found : memo.direct[(place, id)]? = some known) :
    (remember place id decision).run memo = .ok (known, memo) := by
  simp only [remember, StateT.run_bind, StateT.run_get, pure_bind, found]
  rfl

theorem remember_run_new (found : memo.direct[(place, id)]? = none)
    (runs : decision.run memo = .ok (answer, between)) :
    (remember place id decision).run memo
      = .ok (answer, { between with direct := between.direct.insert (place, id) answer }) := by
  simp only [remember, StateT.run_bind, StateT.run_get, pure_bind, found, runs]
  rfl

theorem counted_run (decision : Matcher Bool) (memo : Memo) :
    (counted decision).run memo = decision.run { memo with decisions := memo.decisions + 1 } := rfl

theorem rememberAncestor_run_known (found : memo.ancestor[(place, id)]? = some known) :
    (rememberAncestor place id decision).run memo = .ok (known, memo) := by
  simp only [rememberAncestor, StateT.run_bind, StateT.run_get, pure_bind, found]
  rfl

theorem rememberAncestor_run_new (found : memo.ancestor[(place, id)]? = none)
    (runs : decision.run memo = .ok (answer, between)) :
    (rememberAncestor place id decision).run memo
      = .ok (answer, { between with ancestor := between.ancestor.insert (place, id) answer }) := by
  simp only [rememberAncestor, StateT.run_bind, StateT.run_get, pure_bind, found, runs]
  rfl

end Tables

/-! ### Answers of the matcher -/

variable {tree : Tree} {engine : RegexEngine} {roots : List Selector} {place : Place}
  {selector : Selector} {answer : Bool}

/-- What is remembered about a node is what is decided about it. -/
theorem answers_remember (located : place.selector? roots = some selector) {id : Nat}
    {decision : Matcher Bool}
    (decides : Answers (Memo.Sound tree engine roots) decision (selector.holds tree engine id)) :
    Answers (Memo.Sound tree engine roots) (remember place id decision)
      (selector.holds tree engine id) := by
  intro memo sound
  cases found : memo.direct[(place, id)]? with
  | some known =>
      rw [← sound.direct_eq located found]
      exact ⟨memo, remember_run_known found, sound⟩
  | none =>
      obtain ⟨between, runs, soundBetween⟩ := decides memo sound
      exact ⟨_, remember_run_new found runs, soundBetween.insert_direct located id⟩

/-- Counting a decision leaves both tables as they are. -/
theorem answers_counted {decision : Matcher Bool}
    (decides : Answers (Memo.Sound tree engine roots) decision answer) :
    Answers (Memo.Sound tree engine roots) (counted decision) answer :=
  fun memo sound => decides { memo with decisions := memo.decisions + 1 } (sound.of_tables rfl rfl)

theorem answers_rememberAncestor (located : place.selector? roots = some selector) {id : Nat}
    {decision : Matcher Bool}
    (decides : Answers (Memo.Sound tree engine roots) decision
      ((tree.ancestors id).any (selector.holds tree engine))) :
    Answers (Memo.Sound tree engine roots) (rememberAncestor place id decision)
      ((tree.ancestors id).any (selector.holds tree engine)) := by
  intro memo sound
  cases found : memo.ancestor[(place, id)]? with
  | some known =>
      rw [← sound.ancestor_eq located found]
      exact ⟨memo, rememberAncestor_run_known found, sound⟩
  | none =>
      obtain ⟨between, runs, soundBetween⟩ := decides memo sound
      exact ⟨_, rememberAncestor_run_new found runs, soundBetween.insert_ancestor located id⟩

/-- An atom with a well-formed test is decided as it is meant. A search that is given up leaves a note and
no answer in the tables. -/
theorem answers_decideAtom (id : Nat) :
    ∀ {condition : Atom}, condition.WellFormed →
      Answers (Memo.Sound tree engine roots) (decideAtom tree engine condition id)
        (condition.verdict tree engine id).holds
  | .identifier _, _ | .wildcard, _ | .field _, _ | .attribute _ none, _ => answers_pure _
  | .attribute path (some test), wellFormed => by
      have isWellFormed : test.WellFormed := wellFormed
      simp only [decideAtom, if_pos isWellFormed, Atom.verdict]
      split
      · split
        · exact (answers_modify fun _ sound => sound.of_tables rfl rfl).bind (answers_pure _)
        · exact answers_pure _
      · exact answers_pure _

/-- The ancestors above the parent of a node are the ancestors of the parent. -/
theorem ancestors_of_cons {id parent : Nat} {rest : List Nat}
    (chain : tree.ancestors id = parent :: rest) : tree.ancestors parent = rest := by
  rw [Tree.ancestors] at chain
  split at chain
  · simp at chain
  · split at chain
    · simp only [List.cons.injEq] at chain
      rcases chain with ⟨rfl, rfl⟩
      rfl
    · simp at chain

/-- The climb along the ancestors of a node finds out whether one of them is matched. -/
theorem answers_climb (located : place.selector? roots = some selector)
    {test : Nat → Matcher Bool}
    (tests : ∀ id, Answers (Memo.Sound tree engine roots) (test id)
      (selector.holds tree engine id)) :
    ∀ (above : List Nat) (id : Nat), tree.ancestors id = above →
      Answers (Memo.Sound tree engine roots) (climb place test id above)
        (above.any (selector.holds tree engine)) := by
  intro above
  induction above with
  | nil =>
      intro id chain
      have noneAbove : (tree.ancestors id).any (selector.holds tree engine) = false := by
        rw [chain]
        rfl
      rw [List.any_nil, ← noneAbove, climb]
      apply answers_rememberAncestor located
      rw [noneAbove]
      exact answers_pure false
  | cons parent rest inductionHypothesis =>
      intro id chain
      rw [climb, ← chain]
      apply answers_rememberAncestor located
      rw [chain, List.any_cons]
      exact (tests parent).or (inductionHypothesis parent (ancestors_of_cons chain))

mutual

/-- The matcher with memory says whether the term at a place matches a node. -/
theorem answers_isMatch :
    ∀ (selector : Selector) (place : Place) (id : Nat),
      place.selector? roots = some selector → selector.WellFormed →
        Answers (Memo.Sound tree engine roots) (isMatch tree engine selector place id)
          (selector.holds tree engine id)
  | .atom marked condition, place, id, located, wellFormed => by
      rw [isMatch]
      exact answers_remember located (answers_counted (answers_decideAtom id wellFormed.condition))
  | .joined marked .child left right, place, id, located, wellFormed => by
      rw [isMatch]
      apply answers_remember located
      apply answers_counted
      rw [Selector.holds]
      refine (answers_isMatch right _ id (Place.selector?_child located 1) wellFormed.right).and ?_
      cases tree.parent? id with
      | none => exact answers_pure false
      | some parent =>
          exact answers_isMatch left _ parent (Place.selector?_child located 0) wellFormed.left
  | .joined marked .descendant left right, place, id, located, wellFormed => by
      rw [isMatch]
      apply answers_remember located
      apply answers_counted
      rw [Selector.holds]
      refine (answers_isMatch right _ id (Place.selector?_child located 1) wellFormed.right).and ?_
      have leftLocated := Place.selector?_child located 0
      exact answers_climb leftLocated
        (fun above => answers_isMatch left _ above leftLocated wellFormed.left) _ id rfl
  | .compound marked members, place, id, located, wellFormed => by
      rw [isMatch]
      apply answers_remember located
      apply answers_counted
      rw [Selector.holds]
      exact answers_allMatch members place 0 id
        (fun index => by rw [Place.selector?_child located, Nat.zero_add]; rfl)
        wellFormed.compound_member
  | .union marked members, place, id, located, wellFormed => by
      rw [isMatch]
      apply answers_remember located
      apply answers_counted
      rw [Selector.holds]
      exact answers_anyMatch members place 0 id
        (fun index => by rw [Place.selector?_child located, Nat.zero_add]; rfl)
        wellFormed.union_member

theorem answers_allMatch :
    ∀ (members : List Selector) (place : Place) (first id : Nat),
      (∀ index, (place.child (first + index)).selector? roots = members[index]?) →
      (∀ member ∈ members, member.WellFormed) →
        Answers (Memo.Sound tree engine roots) (allMatch tree engine members place first id)
          (Selector.allHold tree engine members id)
  | [], place, first, id, located, wellFormed => answers_pure true
  | member :: rest, place, first, id, located, wellFormed => by
      rw [allMatch, Selector.allHold]
      refine (answers_isMatch member _ id (located 0)
        (wellFormed member List.mem_cons_self)).and ?_
      refine answers_allMatch rest place (first + 1) id (fun index => ?_)
        (fun other further => wellFormed other (List.mem_cons_of_mem _ further))
      rw [Nat.add_right_comm, Nat.add_assoc, located (index + 1)]
      rfl

theorem answers_anyMatch :
    ∀ (members : List Selector) (place : Place) (first id : Nat),
      (∀ index, (place.child (first + index)).selector? roots = members[index]?) →
      (∀ member ∈ members, member.WellFormed) →
        Answers (Memo.Sound tree engine roots) (anyMatch tree engine members place first id)
          (Selector.anyHolds tree engine members id)
  | [], place, first, id, located, wellFormed => answers_pure false
  | member :: rest, place, first, id, located, wellFormed => by
      rw [anyMatch, Selector.anyHolds]
      refine (answers_isMatch member _ id (located 0)
        (wellFormed member List.mem_cons_self)).or ?_
      refine answers_anyMatch rest place (first + 1) id (fun index => ?_)
        (fun other further => wellFormed other (List.mem_cons_of_mem _ further))
      rw [Nat.add_right_comm, Nat.add_assoc, located (index + 1)]
      rfl

end

/-- The matcher with memory says whether the term at a place matches a strict ancestor of a node. -/
theorem answers_matchesAncestor (located : place.selector? roots = some selector)
    (wellFormed : selector.WellFormed) (id : Nat) :
    Answers (Memo.Sound tree engine roots) (matchesAncestor tree engine selector place id)
      ((tree.ancestors id).any (selector.holds tree engine)) :=
  answers_climb located (fun above => answers_isMatch selector place above located wellFormed) _ id
    rfl

end Matcher

end TreeLint
