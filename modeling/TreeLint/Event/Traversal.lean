import TreeLint.Event.Registry
import TreeLint.Matching.Memo
import TreeLint.Tree.Walk

/-!
Contract: events of a walk through a tree.

Owns:
- events, each a pattern and a node that it fired on;
- a traversal, which is a memory that all registered patterns share while one tree is walked;
- the recorder that keeps events in order;
- the same events by brute force, from what selectors mean alone.
-/

set_option autoImplicit false

namespace TreeLint

/-- A pattern fired on a node. -/
structure Event where
  name : String
  node : Nat
  deriving DecidableEq, Repr

/-- The nodes of the events with a given name, in order. -/
def nodesFor (events : List Event) (name : String) : List Nat :=
  (events.filter (·.name == name)).map Event.node

namespace Registry

/-- Tries entries on a node, those that fire on leaving if `onLeave` is set and the others if not. -/
def fire (tree : Tree) (engine : RegexEngine) (onLeave : Bool) (id : Nat) :
    List (Nat × Registration) → Matcher (List Event)
  | [] => return []
  | (number, entry) :: rest => do
      if entry.onLeave == onLeave then
        if ← Matcher.isMatch tree engine entry.selector (.ofRoot number) id then
          return ⟨entry.raw, id⟩ :: (← fire tree engine onLeave id rest)
        else fire tree engine onLeave id rest
      else fire tree engine onLeave id rest

def visit (registry : Registry) (tree : Tree) (engine : RegexEngine) (step : Visit) :
    Matcher (List Event) :=
  let candidates := registry.candidates ((tree.kind? step.node).getD "")
  match step with
  | .enter id => fire tree engine false id candidates
  | .leave id => fire tree engine true id candidates

def visitAll (registry : Registry) (tree : Tree) (engine : RegexEngine) :
    List Visit → Matcher (List Event)
  | [] => return []
  | step :: rest => do
      let events ← registry.visit tree engine step
      return events ++ (← visitAll registry tree engine rest)

/-- The events of a walk through the whole tree, and the memory at its end. -/
def run (registry : Registry) (tree : Tree) (engine : RegexEngine) :
    Except MatchFault (List Event × Memo) :=
  (registry.visitAll tree engine tree.walk).run .empty

/-- The records of a finished walk: searches that were given up, and the sizes of the memory. -/
def records (tree : Tree) (memo : Memo) : List LogRecord :=
  (memo.gaveUp.reverse.map fun source =>
    ⟨.warn, .attributes, "regex evaluation failed", [("pattern", .plain source)]⟩)
  ++ [⟨.trace, .events, "traversal finished",
      [("nodes", .number tree.size), ("direct", .number memo.direct.size),
        ("ancestor", .number memo.ancestor.size)]⟩]

/-- The events of one step by brute force: every entry is tried on every node by what its selector means,
the entries with a hint before those without. -/
def expected (registry : Registry) (tree : Tree) (engine : RegexEngine) (step : Visit) :
    List Event :=
  let (id, onLeave) :=
    match step with
    | .enter id => (id, false)
    | .leave id => (id, true)
  let fires (entry : Registration) : Bool :=
    entry.onLeave == onLeave && entry.selector.holds tree engine id
  let entries := registry.entries.toList
  ((entries.filter fun entry => entry.hint.isSome && fires entry)
    ++ (entries.filter fun entry => entry.hint.isNone && fires entry)).map
      fun entry => ⟨entry.raw, id⟩

end Registry

end TreeLint
