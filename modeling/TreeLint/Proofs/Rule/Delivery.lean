import TreeLint.Proofs.Event.Occurrences
import TreeLint.Proofs.Lists
import TreeLint.Rule.Check

/-!
Contract: what a rule set reports for a tree.

Owns:
- which lists of rules make a set;
- the index of listeners, which has under a pattern the rules with that pattern, each once and in their order;
- `RuleSet.withBase`, the set with its path patterns relative to a directory or to none;
- the rules that receive an event, as a choice among the rules in their order;
- the diagnostics of a check, as those of the events that all patterns fire by brute force.
-/

set_option autoImplicit false

namespace TreeLint.RuleSet

variable {engine : RegexEngine} {globs : GlobEngine} {rules : List Rule} {set : RuleSet}

/-! ### Listeners -/

section Listeners

variable {number : Nat} {pattern : String} {byPattern : Std.HashMap String (List Nat)}

/-- One selector adds a rule under that pattern only, and only if the rule does not stand there yet. -/
theorem getD_subscribe (selector : String) :
    (subscribe number byPattern selector).getD pattern []
      = if pattern = selector ∧ number ∉ byPattern.getD pattern [] then byPattern.getD pattern [] ++ [number]
        else byPattern.getD pattern [] := by
  by_cases isPattern : pattern = selector
  · subst isPattern
    by_cases listed : number ∈ byPattern.getD pattern []
    · rw [subscribe, if_pos (List.contains_iff_mem.mpr listed), if_neg fun added => added.2 listed]
    · rw [subscribe, if_neg fun contained => listed (List.contains_iff_mem.mp contained),
        Std.HashMap.getD_insert_self, if_pos ⟨rfl, listed⟩]
  · have isOther : ¬ (pattern = selector ∧ number ∉ byPattern.getD pattern []) := fun added => isPattern added.1
    rw [if_neg isOther, subscribe]
    split
    · rfl
    · rw [Std.HashMap.getD_insert, if_neg fun isSelector => isPattern (eq_of_beq isSelector).symm]

theorem getD_foldl_subscribe_of_mem (listed : number ∈ byPattern.getD pattern []) (selectors : List String) :
    (selectors.foldl (subscribe number) byPattern).getD pattern [] = byPattern.getD pattern [] := by
  induction selectors generalizing byPattern with
  | nil => rfl
  | cons selector rest inductionHypothesis =>
      have same : (subscribe number byPattern selector).getD pattern [] = byPattern.getD pattern [] := by
        rw [getD_subscribe, if_neg fun added => added.2 listed]
      rw [List.foldl_cons, inductionHypothesis (same ▸ listed), same]

/-- A rule is added under each of its selectors, however often it names it. -/
theorem getD_foldl_subscribe (fresh : number ∉ byPattern.getD pattern []) (selectors : List String) :
    (selectors.foldl (subscribe number) byPattern).getD pattern []
      = byPattern.getD pattern [] ++ if selectors.contains pattern then [number] else [] := by
  induction selectors generalizing byPattern with
  | nil => exact (List.append_nil _).symm
  | cons selector rest inductionHypothesis =>
      rw [List.foldl_cons, List.contains_cons]
      by_cases isPattern : pattern = selector
      · have added : (subscribe number byPattern selector).getD pattern []
            = byPattern.getD pattern [] ++ [number] := by
          rw [getD_subscribe, if_pos ⟨isPattern, fresh⟩]
        have listed : number ∈ (subscribe number byPattern selector).getD pattern [] := by
          rw [added]
          exact List.mem_append_right _ List.mem_cons_self
        rw [getD_foldl_subscribe_of_mem listed, added, beq_iff_eq.mpr isPattern, Bool.true_or, if_pos rfl]
      · have same : (subscribe number byPattern selector).getD pattern [] = byPattern.getD pattern [] := by
          rw [getD_subscribe, if_neg fun added => isPattern added.1]
        have fresh' : number ∉ (subscribe number byPattern selector).getD pattern [] := same ▸ fresh
        rw [inductionHypothesis fresh', same, beq_false_of_ne isPattern, Bool.false_or]

/-- Rules that are numbered from `first` on come after the rules with lower numbers. -/
theorem getD_enlist (rules : List Rule) {first : Nat}
    (earlier : ∀ number ∈ byPattern.getD pattern [], number < first) :
    ((rules.zipIdx first).foldl enlist byPattern).getD pattern []
      = byPattern.getD pattern []
        ++ ((rules.zipIdx first).filter (·.1.selectors.contains pattern)).map Prod.snd := by
  induction rules generalizing first byPattern with
  | nil => exact (List.append_nil _).symm
  | cons rule rest inductionHypothesis =>
      have fresh : first ∉ byPattern.getD pattern [] := fun listed => Nat.lt_irrefl _ (earlier first listed)
      have added := getD_foldl_subscribe fresh rule.selectors
      have before : ∀ number ∈ (enlist byPattern (rule, first)).getD pattern [], number < first + 1 := by
        intro number listed
        rw [enlist, added] at listed
        rcases List.mem_append.mp listed with old | new
        · exact Nat.lt_succ_of_lt (earlier number old)
        · split at new
          · rw [List.mem_singleton.mp new]
            exact Nat.lt_succ_self first
          · contradiction
      rw [List.zipIdx_cons, List.foldl_cons, inductionHypothesis before, enlist, added, List.append_assoc,
        List.filter_cons]
      split <;> rfl

theorem getD_listenersOf (rules : List Rule) (pattern : String) :
    (listenersOf rules).getD pattern [] = (rules.zipIdx.filter (·.1.selectors.contains pattern)).map Prod.snd := by
  have earlier : ∀ number ∈ (∅ : Std.HashMap String (List Nat)).getD pattern [], number < 0 := by
    rw [Std.HashMap.getD_empty]
    exact List.forall_mem_nil _
  rw [listenersOf, getD_enlist rules earlier, Std.HashMap.getD_empty, List.nil_append]

end Listeners

/-! ### Sets -/

theorem exists_registry (isSet : ofRules engine rules = .ok set) :
    ∃ registry, Registry.ofPatterns engine (patternsOf rules) = .ok registry ∧
      set = ⟨rules.toArray, registry, listenersOf rules, none⟩ := by
  unfold ofRules at isSet
  split at isSet
  · rename_i registry isRegistry
    exact ⟨registry, isRegistry, (Except.ok.inj isSet).symm⟩
  · contradiction

/-- Rules make a set exactly if all of their selectors can be parsed. -/
theorem exists_ofRules_iff :
    (∃ set, ofRules engine rules = .ok set) ↔
      ∀ rule ∈ rules, ∀ pattern ∈ rule.selectors, (Pattern.selector? engine pattern).isSome = true := by
  have eachPattern := @Registry.exists_ofPatterns_iff engine (patternsOf rules)
  constructor
  · rintro ⟨set, isSet⟩ rule member pattern isSelector
    obtain ⟨registry, isRegistry, _⟩ := exists_registry isSet
    exact eachPattern.mp ⟨registry, isRegistry⟩ pattern
      (List.mem_flatMap.mpr ⟨rule, member, isSelector⟩)
  · intro denote
    obtain ⟨registry, isRegistry⟩ := eachPattern.mpr fun pattern isPattern => by
      obtain ⟨rule, member, isSelector⟩ := List.mem_flatMap.mp isPattern
      exact denote rule member pattern isSelector
    refine ⟨⟨rules.toArray, registry, listenersOf rules, none⟩, ?_⟩
    rw [ofRules, isRegistry]

def withBase (set : RuleSet) : Option String → RuleSet
  | some directory => set.withBaseDir directory
  | none => set

theorem withBase_eq (set : RuleSet) (noBase : set.baseDir = none) (base : Option String) :
    set.withBase base = ⟨set.rules, set.registry, set.byPattern, base⟩ := by
  cases base with
  | none => rw [withBase, ← noBase]
  | some directory => rfl

/-- The rules that listen to a pattern are those with that pattern, in their order. -/
theorem listeners_eq (isSet : ofRules engine rules = .ok set) (pattern : String) :
    set.listeners pattern = (rules.zipIdx.filter (·.1.selectors.contains pattern)).map Prod.snd := by
  obtain ⟨_, _, rfl⟩ := exists_registry isSet
  exact getD_listenersOf rules pattern

/-- An event is delivered to the rules that apply to the path and listen to its pattern, in their order. -/
theorem receivers_eq (isSet : ofRules engine rules = .ok set) (active : Rule → Bool) (pattern : String) :
    set.receivers (set.rules.map active) pattern
      = rules.filter fun rule => active rule && rule.selectors.contains pattern := by
  have chosen : ∀ number : Nat, (if (set.rules.map active)[number]?.getD false then set.rules[number]? else none)
      = (rules[number]?).bind (Option.guard active) := by
    intro number
    obtain ⟨_, _, rfl⟩ := exists_registry isSet
    rw [Array.getElem?_map, List.getElem?_toArray]
    cases rules[number]? with
    | none => rfl
    | some rule => cases isActive : active rule <;> simp [Option.guard, isActive]
  rw [receivers, List.filterMap_congr fun number _ => chosen number, listeners_eq isSet]
  rw [filterMap_zipIdx rules (fun rule => rule.selectors.contains pattern), List.filterMap_eq_filter,
    List.filter_filter]

theorem deliver_eq (isSet : ofRules engine rules = .ok set) (active : Rule → Bool) (path : String) (tree : Tree)
    (events : List Event) :
    set.deliver (set.rules.map active) path tree events
      = events.flatMap fun event =>
          (rules.filter fun rule => active rule && rule.selectors.contains event.name).map
            (diagnosticFor path tree event.node) :=
  List.flatMap_congr fun event _ => by rw [receivers_eq isSet]

/-- If no rule applies to the path, nothing is delivered. -/
theorem deliver_eq_nil (set : RuleSet) {active : Array Bool} (noneActive : active.contains true ≠ true)
    (path : String) (tree : Tree) (events : List Event) : set.deliver active path tree events = [] := by
  have inactive : ∀ number : Nat, active[number]?.getD false ≠ true := by
    intro number isActive
    apply noneActive
    rw [Array.contains_iff_mem]
    cases found : active[number]? with
    | none =>
        rw [found] at isActive
        contradiction
    | some value =>
        rw [found] at isActive
        exact isActive ▸ Array.mem_of_getElem? found
  apply List.flatMap_eq_nil_iff.mpr
  intro event _
  rw [List.map_eq_nil_iff, receivers, List.filterMap_eq_nil_iff]
  exact fun number _ => if_neg (inactive number)

/-! ### Diagnostics -/

/-- A check delivers the events of the run, also where it does not walk the tree. -/
theorem result_check_of_run {path : String} {tree : Tree} {events : List Event} {memo : Memo}
    (runs : set.registry.run tree engine = .ok (events, memo)) :
    (set.check engine globs path tree).result
      = .ok (set.deliver (set.rules.map (set.applies globs path)) path tree events) := by
  unfold check
  simp only
  split
  · rw [runs]
  · rename_i noneActive
    rw [deliver_eq_nil set noneActive]
    rfl

/-- The diagnostics for a tree are those that the events of the walk cause, one after another. -/
theorem result_check (isSet : ofRules engine rules = .ok set) (base : Option String)
    (path : String) (tree : Tree) :
    ((set.withBase base).check engine globs path tree).result
      = .ok ((tree.walk.flatMap (bruteForce tree engine (patternsOf rules))).flatMap fun event =>
          (rules.filter fun rule => (set.withBase base).applies globs path rule
            && rule.selectors.contains event.name).map (diagnosticFor path tree event.node)) := by
  have delivered := deliver_eq isSet ((set.withBase base).applies globs path) path tree
  obtain ⟨registry, isRegistry, rfl⟩ := exists_registry isSet
  obtain ⟨memo, runs⟩ := Registry.exists_run isRegistry tree
  rw [withBase_eq _ rfl] at delivered ⊢
  rw [result_check_of_run runs, ← delivered]
  rfl

end TreeLint.RuleSet
