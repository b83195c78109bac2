import TreeLint.Proofs.Rule.Delivery
import TreeLint.Proofs.Tree.Closed

/-!
Contract: checking a source text cannot fail.

Owns:
- `Registry.InRange`, by which the index of patterns leads to entries only;
- the rules that listen to a pattern: there are some for every registered pattern, and their numbers are numbers
  of rules;
- the outcome of checking any text with any set of rules, with everything that it looks up in range.

Does not own: reading files and configurations.
-/

set_option autoImplicit false

namespace TreeLint

/-! ### The index of patterns -/

namespace Registry

/-- The index leads to entries only. -/
structure InRange (registry : Registry) : Prop where
  byKind : ∀ (kind : String) (numbers : List Nat), registry.byKind[kind]? = some numbers →
    ∀ number ∈ numbers, number < registry.size
  general : ∀ number ∈ registry.general, number < registry.size

theorem lt_size_of_mem_numbersWhere {registry : Registry} {p : Registration → Bool} {number : Nat}
    (member : number ∈ registry.numbersWhere p) : number < registry.size := by
  obtain ⟨⟨entry, _⟩, chosen, rfl⟩ := List.mem_map.mp member
  have found := List.mem_zipIdx_iff_getElem?.mp (List.mem_of_mem_filter chosen)
  exact (List.getElem?_eq_some_iff.mp found).1

theorem Indexed.inRange {registry : Registry} (indexed : registry.Indexed) : registry.InRange where
  byKind kind numbers found number member := by
    have isWhere := indexed.byKind kind
    rw [Std.HashMap.getD_eq_getD_getElem?, found, Option.getD_some] at isWhere
    exact lt_size_of_mem_numbersWhere (isWhere ▸ member)
  general number member := lt_size_of_mem_numbersWhere (indexed.general ▸ member)

/-- No registered selector orders a value against a regular expression or a type name. -/
theorem wellFormed_of_registered {engine : RegexEngine} {registry : Registry}
    (registered : registry.Registered engine) :
    ∀ entry ∈ registry.entries.toList, entry.selector.WellFormed := by
  intro entry member
  exact Selector.wellFormed_of_parse (Registration.of_ofPattern (registered.entry entry member)).2.2.1

end Registry

namespace RuleSet

variable {engine : RegexEngine} {globs : GlobEngine} {rules : List Rule} {set : RuleSet}

/-! ### Listeners -/

theorem lt_size_of_listens (isSet : ofRules engine rules = .ok set) {pattern : String} {number : Nat}
    (member : number ∈ set.listeners pattern) : number < set.size := by
  rw [listeners_eq isSet] at member
  obtain ⟨⟨rule, _⟩, listens, rfl⟩ := List.mem_map.mp member
  have found := List.mem_zipIdx_iff_getElem?.mp (List.mem_of_mem_filter listens)
  obtain ⟨registry, _, rfl⟩ := exists_registry isSet
  exact (List.getElem?_eq_some_iff.mp found).1

/-- Some rule listens to every registered pattern. -/
theorem listeners_ne_nil (isSet : ofRules engine rules = .ok set) {pattern : String}
    (registered : pattern ∈ patternsOf rules) : set.listeners pattern ≠ [] := by
  obtain ⟨rule, member, isSelector⟩ := List.mem_flatMap.mp registered
  obtain ⟨number, inRange, isRule⟩ := List.getElem_of_mem member
  have found : rules[number]? = some rule := List.getElem?_eq_some_iff.mpr ⟨inRange, isRule⟩
  apply List.ne_nil_of_mem (a := number)
  rw [listeners_eq isSet, List.mem_map]
  refine ⟨(rule, number), List.mem_filter.mpr ⟨?_, ?_⟩, rfl⟩
  · exact List.mem_zipIdx_iff_getElem?.mpr found
  · exact List.contains_iff_mem.mpr isSelector

/-! ### Outcomes -/

theorem exists_lint (isSet : ofRules engine rules = .ok set) (formats : Formats) (base : Option String)
    (path text : String) :
    ∃ diagnostics, (set.withBase base).lint engine globs formats path text = .ok diagnostics := by
  rw [lint, checkText]
  cases Tree.read formats text with
  | error error => exact ⟨_, rfl⟩
  | ok tree =>
      change ∃ diagnostics, (check _ engine globs path tree).result.map Diagnostic.sorted = .ok diagnostics
      rw [result_check isSet]
      exact ⟨_, rfl⟩

/-- Every event is about a node of the tree, and some rule listens to its pattern. -/
theorem delivered_of_mem_events (isSet : ofRules engine rules = .ok set) {document : Json} {tree : Tree}
    (built : Tree.ofJson document = .ok tree) :
    ∀ event ∈ tree.walk.flatMap (bruteForce tree engine (patternsOf rules)),
      event.node < tree.size ∧ set.listeners event.name ≠ [] := by
  rintro ⟨name, id⟩ member
  obtain ⟨step, isStep, fires⟩ := List.mem_flatMap.mp member
  obtain ⟨isTurn, registered, _⟩ := (mem_bruteForce_iff step name id).mp fires
  refine ⟨?_, listeners_ne_nil isSet registered⟩
  have inTree := (Tree.mem_walk_iff built step).mp isStep
  rwa [isTurn, Pattern.turn_node] at inTree

/-- Checking a text with a set of rules never fails. No selector of the set orders what has no order; the index
of patterns and the lists of listeners lead to entries and rules; the tree of the text, at every moment of its
walk the stack, and every event lead to nodes; and every event has a listener. -/
theorem lint_safe (isSet : ofRules engine rules = .ok set) (globs : GlobEngine) (formats : Formats)
    (base : Option String) (path text : String) :
    (∃ diagnostics, (set.withBase base).lint engine globs formats path text = .ok diagnostics) ∧
      (∀ entry ∈ set.registry.entries.toList, entry.selector.WellFormed) ∧
      set.registry.InRange ∧
      (∀ pattern, ∀ number ∈ set.listeners pattern, number < set.size) ∧
      ∀ tree, Tree.read formats text = .ok tree →
        tree.Closed ∧
        (∀ count, ∀ step ∈ tree.stackAt count, step.node < tree.size) ∧
        tree.stackAt (2 * tree.size) = [] ∧
        tree.walk = ((List.range (2 * tree.size)).flatMap fun count =>
          (tree.stackAt count).head?.toList) ∧
        ∃ events memo, set.registry.run tree engine = .ok (events, memo) ∧
          ∀ event ∈ events, event.node < tree.size ∧ set.listeners event.name ≠ [] := by
  obtain ⟨registry, isRegistry, isTheSet⟩ := exists_registry isSet
  have registered := Registry.registered_ofPatterns isRegistry
  refine ⟨exists_lint isSet formats base path text, ?_, ?_, fun _ _ => lt_size_of_listens isSet, ?_⟩
  · rw [isTheSet]
    exact Registry.wellFormed_of_registered registered
  · rw [isTheSet]
    exact registered.indexed.inRange
  · intro tree read
    obtain ⟨document, built⟩ := Tree.exists_ofJson_of_read read
    obtain ⟨memo, runs⟩ := Registry.exists_run isRegistry tree
    refine ⟨Tree.closed_of_ofJson built, Tree.node_lt_size_stackAt built, Tree.stackAt_finish built,
      tree.walk_eq_tops, _, memo, ?_, delivered_of_mem_events isSet built⟩
    rw [isTheSet]
    exact runs

/-- A relational test and a pattern for leaving, on a node in a field of another one. -/
theorem lint_safe_nested :
    ∃ set tree diagnostics events memo,
      ofRules .standard [⟨"One", ["A[b.length>0] B:exit"], "no B", .error, []⟩] = .ok set ∧
      Tree.read .standard "\x7b\"type\":\"A\",\"b\":[\x7b\"type\":\"B\"\x7d]\x7d" = .ok tree ∧
      (set.withBaseDir "src").lint .standard .standard .standard "src/a.json"
        "\x7b\"type\":\"A\",\"b\":[\x7b\"type\":\"B\"\x7d]\x7d" = .ok diagnostics ∧
      tree.Closed ∧ set.registry.run tree .standard = .ok (events, memo) ∧
      ∀ event ∈ events, event.node < tree.size ∧ set.listeners event.name ≠ [] := by
  have accepted : (ofRules .standard
      [⟨"One", ["A[b.length>0] B:exit"], "no B", .error, []⟩]).toOption.isSome = true := by
    decide +kernel
  have readable : (Tree.read .standard
      "\x7b\"type\":\"A\",\"b\":[\x7b\"type\":\"B\"\x7d]\x7d").toOption.isSome = true := by
    cbv
  cases isSet : ofRules .standard [⟨"One", ["A[b.length>0] B:exit"], "no B", .error, []⟩] with
  | error error =>
      rw [isSet] at accepted
      contradiction
  | ok set =>
      cases read : Tree.read .standard "\x7b\"type\":\"A\",\"b\":[\x7b\"type\":\"B\"\x7d]\x7d" with
      | error error =>
          rw [read] at readable
          contradiction
      | ok tree =>
          obtain ⟨⟨diagnostics, linted⟩, _, _, _, inTree⟩ :=
            lint_safe isSet .standard .standard (some "src") "src/a.json"
              "\x7b\"type\":\"A\",\"b\":[\x7b\"type\":\"B\"\x7d]\x7d"
          obtain ⟨closed, _, _, _, events, memo, runs, delivered⟩ := inTree tree read
          exact ⟨set, tree, diagnostics, events, memo, rfl, rfl, linted, closed, runs, delivered⟩

end RuleSet

end TreeLint
