import TreeLint.Event.Traversal
import TreeLint.Proofs.Event.Index
import TreeLint.Proofs.Matching.Memory

/-!
Contract: what a traversal fires is what the registered patterns mean.

Owns: the answers of a traversal from any sound memory, for a list of candidates, for one step, and for
several steps in any order. A step fires every entry that matches its node, although only the candidates for
the type of the node are tried.
-/

set_option autoImplicit false

namespace TreeLint

def Visit.leaves : Visit → Bool
  | .enter _ => false
  | .leave _ => true

namespace Registry

open Matcher

variable {tree : Tree} {engine : RegexEngine} {registry : Registry}

/-- The selectors of the entries. The number of an entry is the place of its selector. -/
def selectors (registry : Registry) : List Selector :=
  registry.entries.toList.map Registration.selector

def fires (tree : Tree) (engine : RegexEngine) (step : Visit) (entry : Registration) : Bool :=
  entry.onLeave == step.leaves && entry.selector.holds tree engine step.node

def eventOf (step : Visit) (entry : Registration) : Event := ⟨entry.raw, step.node⟩

/-- The entries that are tried fire if they match the node. -/
theorem answers_fire (step : Visit) :
    ∀ {candidates : List (Nat × Registration)},
      (∀ candidate ∈ candidates, registry.selectors[candidate.1]? = some candidate.2.selector ∧
        candidate.2.selector.WellFormed) →
      Answers (Memo.Sound tree engine registry.selectors)
        (fire tree engine step.leaves step.node candidates)
        ((candidates.filter (fires tree engine step ·.2)).map fun candidate =>
          eventOf step candidate.2)
  | [], _ => answers_pure _
  | (number, entry) :: rest, located => by
      obtain ⟨here, wellFormed⟩ := located (number, entry) List.mem_cons_self
      have further := answers_fire step fun candidate member =>
        located candidate (List.mem_cons_of_mem _ member)
      have decided : Answers (Memo.Sound tree engine registry.selectors)
          (isMatch tree engine entry.selector (.ofRoot number) step.node)
          (entry.selector.holds tree engine step.node) :=
        answers_isMatch entry.selector (.ofRoot number) step.node here wellFormed
      rw [fire]
      by_cases thisStep : entry.onLeave == step.leaves
      · rw [if_pos thisStep]
        apply decided.bind
        cases holds : entry.selector.holds tree engine step.node with
        | true =>
            rw [List.filter_cons_of_pos (by simp [fires, thisStep, holds])]
            exact further.bind (answers_pure _)
        | false =>
            rw [List.filter_cons_of_neg (by simp [fires, holds])]
            exact further
      · rw [if_neg thisStep, List.filter_cons_of_neg (by simp [fires, thisStep])]
        exact further

/-- An entry that fires on a node is hinted for the type of the node if it is hinted at all. -/
theorem hintedFor_of_fires {step : Visit} {entry : Registration}
    (isHint : entry.hint = entry.selector.hint) (firing : fires tree engine step entry = true) :
    entry.hintedFor ((tree.kind? step.node).getD "") = entry.hint.isSome := by
  rw [fires, Bool.and_eq_true] at firing
  have admits := Selector.hint_admits entry.selector firing.2
  cases hinted : entry.hint with
  | none => simp [Registration.hintedFor, hinted]
  | some kinds =>
      obtain ⟨name, isKind, member⟩ := admits kinds (isHint ▸ hinted)
      simp [Registration.hintedFor, hinted, isKind, member]

theorem map_filter_numbered {α : Type} (registry : Registry) (p : Registration → Bool)
    (f : Registration → α) :
    (registry.numbered.filter (p ·.1)).map (f ·.1) = (registry.entries.toList.filter p).map f := by
  have filtered : registry.entries.toList.filter p
      = (registry.numbered.filter (p ·.1)).map Prod.fst := by
    conv_lhs => rw [← List.zipIdx_map_fst 0 registry.entries.toList]
    rw [List.filter_map]
    rfl
  rw [filtered, List.map_map]
  rfl

theorem expected_eq (registry : Registry) (step : Visit) :
    registry.expected tree engine step
      = ((registry.entries.toList.filter fun entry =>
            entry.hint.isSome && fires tree engine step entry)
          ++ registry.entries.toList.filter fun entry =>
            entry.hint.isNone && fires tree engine step entry).map (eventOf step) := by
  cases step <;> rfl

/-- The candidates for the type of a node that fire in a step are all entries that fire in it. -/
theorem candidates_fire (registered : registry.Registered engine) (step : Visit) :
    ((registry.candidates ((tree.kind? step.node).getD "")).filter
        (fires tree engine step ·.2)).map (fun candidate => eventOf step candidate.2)
      = registry.expected tree engine step := by
  have isHint : ∀ entry ∈ registry.entries.toList, entry.hint = entry.selector.hint :=
    fun entry member => (Registration.of_ofPattern (registered.entry entry member)).2.2.2
  have hinted : registry.entries.toList.filter (fun entry => fires tree engine step entry
        && entry.hintedFor ((tree.kind? step.node).getD ""))
      = registry.entries.toList.filter fun entry =>
          entry.hint.isSome && fires tree engine step entry := by
    apply List.filter_congr
    intro entry member
    cases firing : fires tree engine step entry with
    | true => rw [hintedFor_of_fires (isHint entry member) firing, Bool.true_and, Bool.and_true]
    | false => rw [Bool.false_and, Bool.and_false]
  have general : registry.entries.toList.filter (fun entry => fires tree engine step entry
        && entry.isGeneral)
      = registry.entries.toList.filter fun entry =>
          entry.hint.isNone && fires tree engine step entry :=
    List.filter_congr fun entry _ => Bool.and_comm _ _
  rw [candidates_eq registered.indexed, expected_eq, ← hinted, ← general, List.filter_map,
    List.map_map, List.filter_append, List.map_append, List.map_append, List.filter_filter,
    List.filter_filter]
  congr 1
  · exact map_filter_numbered registry (fun entry => fires tree engine step entry
      && entry.hintedFor ((tree.kind? step.node).getD "")) (eventOf step)
  · exact map_filter_numbered registry (fun entry => fires tree engine step entry
      && entry.isGeneral) (eventOf step)

theorem located_candidates (registered : registry.Registered engine) {kind : String} :
    ∀ candidate ∈ registry.candidates kind,
      registry.selectors[candidate.1]? = some candidate.2.selector ∧
        candidate.2.selector.WellFormed := by
  intro candidate member
  obtain ⟨number, _, isCandidate⟩ := List.mem_filterMap.mp member
  obtain ⟨entry, found, rfl⟩ := Option.map_eq_some_iff.mp isCandidate
  rw [← Array.getElem?_toList] at found
  refine ⟨?_, ?_⟩
  · rw [selectors, List.getElem?_map, found, Option.map_some]
  · have isEntry := registered.entry entry (List.mem_of_getElem? found)
    exact Selector.wellFormed_of_parse (Registration.of_ofPattern isEntry).2.2.1

/-- From any sound memory, a step fires the events that brute force tells. -/
theorem answers_visit (registered : registry.Registered engine) (step : Visit) :
    Answers (Memo.Sound tree engine registry.selectors) (registry.visit tree engine step)
      (registry.expected tree engine step) := by
  rw [← candidates_fire registered step]
  have fired : Answers (Memo.Sound tree engine registry.selectors)
      (fire tree engine step.leaves step.node
        (registry.candidates ((tree.kind? step.node).getD ""))) _ :=
    answers_fire step (located_candidates registered)
  cases step <;> exact fired

theorem answers_visitAll (registered : registry.Registered engine) :
    ∀ steps : List Visit,
      Answers (Memo.Sound tree engine registry.selectors) (registry.visitAll tree engine steps)
        (steps.flatMap (registry.expected tree engine))
  | [] => answers_pure _
  | step :: rest => by
      rw [visitAll, List.flatMap_cons]
      exact (answers_visit registered step).bind
        ((answers_visitAll registered rest).bind (answers_pure _))

end Registry

end TreeLint
