import Mathlib.Data.List.Forall2
import TreeLint.Proofs.Event.Firing
import TreeLint.Proofs.Tree.Ancestry
import TreeLint.Regex.Standard

/-!
Contract: what was asked before does not change an answer.

Owns:
- histories, in which one memory is passed from call to call and every answer is recorded with the memory
  after it;
- queries of the matcher, about any part of any selector of a list and any node, and what their right answers
  are;
- the equality of every recorded answer with the answer from a fresh memory, for queries and for the steps of
  a traversal in any order, and the agreement of all tables on the way.
-/

set_option autoImplicit false

namespace TreeLint

/-! ### Histories -/

namespace Matcher

variable {ι α : Type}

/-- Makes calls one after another on one memory. Each answer is recorded with the memory after it. -/
def replay (call : ι → Matcher α) : List ι → Memo → Except MatchFault (List (α × Memo))
  | [], _ => .ok []
  | item :: rest, memo => do
      let entry ← (call item).run memo
      return entry :: (← replay call rest entry.2)

/-- If calls answer from every memory with an invariant, then a history of them records these answers and keeps
the invariant. -/
theorem replay_of_answers {invariant : Memo → Prop} {call : ι → Matcher α} {answer : ι → α}
    (answers : ∀ item, Answers invariant (call item) (answer item)) (items : List ι) :
    ∀ memo, invariant memo →
      ∃ record, replay call items memo = .ok record ∧
        List.Forall₂ (fun item entry => entry.1 = answer item ∧ invariant entry.2) items record := by
  induction items with
  | nil =>
      intro memo _
      exact ⟨[], rfl, .nil⟩
  | cons item rest inductionHypothesis =>
      intro memo holds
      obtain ⟨after, runs, holdsAfter⟩ := answers item memo holds
      obtain ⟨record, further, all⟩ := inductionHypothesis after holdsAfter
      refine ⟨(answer item, after) :: record, ?_, .cons ⟨rfl, holdsAfter⟩ all⟩
      rw [replay, runs]
      change (do return (answer item, after) :: (← replay call rest after)) = _
      rw [further]
      rfl

end Matcher

/-! ### Queries -/

/-- A part of one of the selectors, with the place where it stands. -/
structure Part (roots : List Selector) where
  place : Place
  selector : Selector
  located : place.selector? roots = some selector

/-- A call of the matcher. -/
inductive Query (roots : List Selector) where
  /-- Whether the part matches the node. -/
  | node (part : Part roots) (id : Nat)
  /-- Whether the part matches a strict ancestor of the node. -/
  | ancestor (part : Part roots) (id : Nat)

namespace Query

variable {roots : List Selector}

def ask (tree : Tree) (engine : RegexEngine) : Query roots → Matcher Bool
  | .node part id => Matcher.isMatch tree engine part.selector part.place id
  | .ancestor part id => Matcher.matchesAncestor tree engine part.selector part.place id

/-- The right answers, by what selectors mean. -/
def IsAnswer (tree : Tree) (engine : RegexEngine) : Query roots → Bool → Prop
  | .node part id, answer => answer = part.selector.holds tree engine id
  | .ancestor part id, answer =>
      answer = true ↔
        ∃ above, tree.StrictAncestor above id ∧ part.selector.holds tree engine above = true

def answer (tree : Tree) (engine : RegexEngine) : Query roots → Bool
  | .node part id => part.selector.holds tree engine id
  | .ancestor part id => (tree.ancestors id).any (part.selector.holds tree engine)

theorem isAnswer_answer {document : Json} {tree : Tree} (built : Tree.ofJson document = .ok tree)
    (engine : RegexEngine) (query : Query roots) :
    query.IsAnswer tree engine (query.answer tree engine) := by
  cases query with
  | node part id => rfl
  | ancestor part id => exact Tree.any_ancestors_iff built

end Query

/-- Every entry of the two tables is the right answer to a query. -/
structure Memo.Agrees (tree : Tree) (engine : RegexEngine) (roots : List Selector) (memo : Memo) :
    Prop where
  direct : ∀ {place : Place} {id : Nat} {known : Bool}, memo.direct[(place, id)]? = some known →
    ∃ part : Part roots, part.place = place ∧ (Query.node part id).IsAnswer tree engine known
  ancestor : ∀ {place : Place} {id : Nat} {known : Bool},
    memo.ancestor[(place, id)]? = some known →
      ∃ part : Part roots, part.place = place ∧ (Query.ancestor part id).IsAnswer tree engine known

theorem Memo.Sound.agrees {document : Json} {tree : Tree} {engine : RegexEngine}
    {roots : List Selector} {memo : Memo} (built : Tree.ofJson document = .ok tree)
    (sound : memo.Sound tree engine roots) : memo.Agrees tree engine roots := by
  constructor
  · intro place id known found
    obtain ⟨selector, located, rfl⟩ := sound.direct found
    exact ⟨⟨place, selector, located⟩, rfl, rfl⟩
  · intro place id known found
    obtain ⟨selector, located, rfl⟩ := sound.ancestor found
    exact ⟨⟨place, selector, located⟩, rfl,
      Query.isAnswer_answer built engine (.ancestor ⟨place, selector, located⟩ id)⟩

theorem wellFormed_of_located {roots : List Selector}
    (wellFormed : ∀ root ∈ roots, root.WellFormed) {place : Place} {selector : Selector}
    (located : place.selector? roots = some selector) : selector.WellFormed := by
  rcases place with ⟨number, steps⟩
  induction steps generalizing selector with
  | nil => exact wellFormed selector (List.mem_of_getElem? located)
  | cons index steps inductionHypothesis =>
      obtain ⟨above, aboveLocated, isChild⟩ := Option.bind_eq_some_iff.mp located
      exact (inductionHypothesis aboveLocated).child (List.mem_of_getElem? isChild)

theorem Query.answers_ask {tree : Tree} {engine : RegexEngine} {roots : List Selector}
    (wellFormed : ∀ root ∈ roots, root.WellFormed) (query : Query roots) :
    Matcher.Answers (Memo.Sound tree engine roots) (query.ask tree engine)
      (query.answer tree engine) := by
  cases query with
  | node part id =>
      exact Matcher.answers_isMatch part.selector part.place id part.located
        (wellFormed_of_located wellFormed part.located)
  | ancestor part id =>
      exact Matcher.answers_matchesAncestor part.located
        (wellFormed_of_located wellFormed part.located) id

/-! ### Memory is invisible -/

/-- Over the tree of a document, any history of queries about well-formed selectors, and any history of steps of
a traversal in any order, goes through without a fault. Every answer in it is the one that is meant, and the
one that a fresh memory gives; and after every call all entries of the tables agree with what is meant. -/
theorem replay_eq_fresh {document : Json} {tree : Tree} (engine : RegexEngine)
    (built : Tree.ofJson document = .ok tree) :
    (∀ roots : List Selector, (∀ root ∈ roots, root.WellFormed) → ∀ queries : List (Query roots),
      ∃ record, Matcher.replay (Query.ask tree engine) queries .empty = .ok record ∧
        List.Forall₂ (fun query entry =>
          query.IsAnswer tree engine entry.1 ∧
            (∃ memo, (query.ask tree engine).run .empty = .ok (entry.1, memo)) ∧
            entry.2.Agrees tree engine roots) queries record) ∧
    ∀ (patterns : List String) (registry : Registry),
      Registry.ofPatterns engine patterns = .ok registry → ∀ steps : List Visit,
        ∃ record, Matcher.replay (registry.visit tree engine) steps .empty = .ok record ∧
          List.Forall₂ (fun step entry =>
            entry.1 = registry.expected tree engine step ∧
              (∃ memo, (registry.visit tree engine step).run .empty = .ok (entry.1, memo)) ∧
              entry.2.Agrees tree engine registry.selectors) steps record := by
  constructor
  · intro roots wellFormed queries
    have answers : ∀ query : Query roots, Matcher.Answers (Memo.Sound tree engine roots)
        (query.ask tree engine) (query.answer tree engine) := Query.answers_ask wellFormed
    obtain ⟨record, replayed, all⟩ :=
      Matcher.replay_of_answers answers queries .empty Memo.Sound.empty
    refine ⟨record, replayed, all.imp fun query entry right => ?_⟩
    rcases right with ⟨isAnswer, sound⟩
    obtain ⟨memo, runs, _⟩ := answers query .empty Memo.Sound.empty
    rw [isAnswer]
    exact ⟨Query.isAnswer_answer built engine query, ⟨memo, runs⟩, sound.agrees built⟩
  · intro patterns registry isRegistry steps
    have answers : ∀ step : Visit, Matcher.Answers (Memo.Sound tree engine registry.selectors)
        (registry.visit tree engine step) (registry.expected tree engine step) :=
      Registry.answers_visit (Registry.registered_ofPatterns isRegistry)
    obtain ⟨record, replayed, all⟩ :=
      Matcher.replay_of_answers answers steps .empty Memo.Sound.empty
    refine ⟨record, replayed, all.imp fun step entry right => ?_⟩
    rcases right with ⟨isAnswer, sound⟩
    obtain ⟨memo, runs, _⟩ := answers step .empty Memo.Sound.empty
    rw [isAnswer]
    exact ⟨rfl, ⟨memo, runs⟩, sound.agrees built⟩

/-- A node below another one. An answer about the ancestors is asked for before the selector that needs it, and
the steps come in an order that no walk takes. -/
theorem replay_eq_fresh_nested :
    let roots := [.joined false .descendant (.ofAtom (.identifier "A")) (.ofAtom .wildcard)]
    let queries : List (Query roots) :=
      [.ancestor ⟨⟨0, [0]⟩, .ofAtom (.identifier "A"), rfl⟩ 1, .node ⟨⟨0, []⟩, _, rfl⟩ 1]
    ∃ tree, Tree.ofJson (.object [("type", .string "A"), ("b", .object [("type", .string "B")])])
        = .ok tree ∧
      (∃ record, Matcher.replay (Query.ask tree .standard) queries .empty = .ok record ∧
        record.map Prod.fst = [true, true]) ∧
      ∃ registry, Registry.ofPatterns .standard ["A B", "*:exit"] = .ok registry ∧
        ∃ record, Matcher.replay (registry.visit tree .standard) [.leave 1, .enter 1, .enter 1] .empty
            = .ok record ∧
          record.map Prod.fst
            = [.leave 1, .enter 1, .enter 1].map (registry.expected tree .standard) := by
  intro roots queries
  have built : Tree.ofJson (.object [("type", .string "A"), ("b", .object [("type", .string "B")])])
      = .ok _ := rfl
  obtain ⟨onQueries, onSteps⟩ := replay_eq_fresh .standard built
  have wellFormed : ∀ root ∈ roots, root.WellFormed := by
    intro root member
    rw [List.mem_singleton.mp member]
    exact .joined (.atom trivial) (.atom trivial)
  refine ⟨_, built, ?_, ?_⟩
  · obtain ⟨record, replayed, all⟩ := onQueries roots wellFormed queries
    refine ⟨record, replayed, ?_⟩
    obtain ⟨first, _, firstRight, others, rfl⟩ := List.forall₂_cons_left_iff.mp all
    obtain ⟨second, _, secondRight, none, rfl⟩ := List.forall₂_cons_left_iff.mp others
    have firstAnswer : first.1 = true :=
      firstRight.1.mpr ⟨0, .parent rfl, by decide +kernel⟩
    have secondAnswer : second.1 = true := secondRight.1.trans (by decide +kernel)
    rw [List.forall₂_nil_left_iff.mp none, List.map_cons, List.map_cons, firstAnswer, secondAnswer]
    rfl
  · have accepted : (Registry.ofPatterns .standard ["A B", "*:exit"]).toOption.isSome = true := by
      decide +kernel
    cases isRegistry : Registry.ofPatterns .standard ["A B", "*:exit"] with
    | error error =>
        rw [isRegistry] at accepted
        exact Bool.noConfusion accepted
    | ok registry =>
        obtain ⟨record, replayed, all⟩ :=
          onSteps _ registry isRegistry [.leave 1, .enter 1, .enter 1]
        refine ⟨registry, rfl, record, replayed, ?_⟩
        obtain ⟨first, _, firstRight, others, rfl⟩ := List.forall₂_cons_left_iff.mp all
        obtain ⟨second, _, secondRight, last, rfl⟩ := List.forall₂_cons_left_iff.mp others
        obtain ⟨third, _, thirdRight, none, rfl⟩ := List.forall₂_cons_left_iff.mp last
        rw [List.forall₂_nil_left_iff.mp none]
        simp only [List.map_cons, firstRight.1, secondRight.1, thirdRight.1, List.map_nil]

end TreeLint
