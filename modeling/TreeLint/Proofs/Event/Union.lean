import TreeLint.Proofs.Event.Occurrences
import TreeLint.Proofs.Selector.Joining

/-!
Contract: a pattern made of two selectors with a comma between them fires where one of the two fires.

Owns:
- `Pattern.ofText`, the pattern of a selector text with or without the marker `:exit`, and what the marker is
  taken off from: no text that can be parsed ends in it;
- what the alternatives of a selector mean together;
- `RunsTo`, the events that patterns registered together give on a tree;
- the union law, for every registration of the joined text beside its two parts.
-/

set_option autoImplicit false

namespace TreeLint

variable {engine : RegexEngine}

/-! ### Patterns of selector texts -/

/-- The pattern of a selector text that fires when a node is left, or entered. -/
def Pattern.ofText (text : String) (onLeave : Bool) : String :=
  if onLeave then text ++ exitMarker else text

/-- A text that can be parsed does not end in the marker: a colon stands inside brackets only. -/
theorem Selector.noExit_of_parse {text : String} {selector : Selector}
    (parsed : Selector.parse engine text = .ok selector) :
    exitMarker.toList.isSuffixOf text.toList = false := by
  rw [Bool.eq_false_iff, ne_eq, List.isSuffixOf_iff_suffix]
  rintro ⟨front, split⟩
  obtain ⟨lexemes, read, derived⟩ := Selector.lexemes_of_parse parsed
  -- The marker would have to close a bracket after its colon.
  have closed : ']' ∈ "exit".toList :=
    mem_rightBracket_of_colon read derived.afterAll split.symm
  exact absurd closed (by decide)

theorem marked_append (text : String) : exitMarker.toList <:+ (text ++ exitMarker).toList := by
  rw [String.toList_append]
  exact List.suffix_append _ _

/-- One marker is taken off, whatever the text before it. -/
theorem splitExit_append (text : String) : splitExit (text ++ exitMarker) = (text, true) := by
  rw [splitExit, List.isSuffixOf_iff_suffix.mpr (marked_append text)]
  simp [String.toList_append]

theorem splitExit_ofText {text : String} {selector : Selector}
    (parsed : Selector.parse engine text = .ok selector) (onLeave : Bool) :
    splitExit (Pattern.ofText text onLeave) = (text, onLeave) := by
  cases onLeave with
  | false =>
      change splitExit text = _
      rw [splitExit, Selector.noExit_of_parse parsed]
      rfl
  | true => exact splitExit_append text

theorem Pattern.selector?_ofText {text : String} {selector : Selector}
    (parsed : Selector.parse engine text = .ok selector) (onLeave : Bool) :
    Pattern.selector? engine (Pattern.ofText text onLeave) = some selector := by
  rw [Pattern.selector?, splitExit_ofText parsed onLeave, parsed]
  rfl

theorem Pattern.holds_ofText {text : String} {selector : Selector}
    (parsed : Selector.parse engine text = .ok selector) (tree : Tree) (onLeave : Bool) (id : Nat) :
    Pattern.holds tree engine (Pattern.ofText text onLeave) id = selector.holds tree engine id := by
  rw [Pattern.holds, Pattern.selector?_ofText parsed, Option.any_some]

/-! ### Alternatives -/

namespace Selector

variable {tree : Tree}

theorem anyHolds_append (members others : List Selector) (id : Nat) :
    anyHolds tree engine (members ++ others) id
      = (anyHolds tree engine members id || anyHolds tree engine others id) := by
  induction members with
  | nil => rw [List.nil_append, anyHolds, Bool.false_or]
  | cons member rest inductionHypothesis =>
      rw [List.cons_append, anyHolds, anyHolds, inductionHypothesis, Bool.or_assoc]

/-- A selector matches a node if one of its alternatives does. -/
theorem anyHolds_alternatives (selector : Selector) (id : Nat) :
    anyHolds tree engine selector.alternatives id = selector.holds tree engine id := by
  unfold alternatives
  split
  · rw [holds]
  · rw [anyHolds, anyHolds, Bool.or_false]

theorem holds_union_alternatives (left right : Selector) (id : Nat) :
    (union false (left.alternatives ++ right.alternatives)).holds tree engine id
      = (left.holds tree engine id || right.holds tree engine id) := by
  rw [holds, anyHolds_append, anyHolds_alternatives, anyHolds_alternatives]

end Selector

/-! ### The union law -/

/-- Registered together, the patterns give the events on the tree. -/
def RunsTo (engine : RegexEngine) (patterns : List String) (tree : Tree) (events : List Event) : Prop :=
  ∃ registry memo, Registry.ofPatterns engine patterns = .ok registry ∧
    registry.run tree engine = .ok (events, memo)

theorem RunsTo.unique {patterns : List String} {tree : Tree} {events others : List Event}
    (runs : RunsTo engine patterns tree events) (runsAgain : RunsTo engine patterns tree others) :
    events = others := by
  obtain ⟨registry, memo, isRegistry, run⟩ := runs
  obtain ⟨_, _, isRegistryAgain, runAgain⟩ := runsAgain
  obtain rfl := Except.ok.inj (isRegistry.symm.trans isRegistryAgain)
  exact congrArg Prod.fst (Except.ok.inj (run.symm.trans runAgain))

/-- Patterns that denote selectors give events on every tree. The nodes of one of them are those that its
selector matches, in the order of the walk. -/
theorem exists_runsTo {patterns : List String}
    (denote : ∀ pattern ∈ patterns, (Pattern.selector? engine pattern).isSome = true)
    {text : String} {selector : Selector} (parsed : Selector.parse engine text = .ok selector)
    {onLeave : Bool} (given : Pattern.ofText text onLeave ∈ patterns) (tree : Tree) :
    ∃ events, RunsTo engine patterns tree events ∧
      nodesFor events (Pattern.ofText text onLeave)
        = (tree.visited onLeave).filter (selector.holds tree engine) := by
  obtain ⟨registry, isRegistry⟩ := Registry.exists_ofPatterns_iff.mpr denote
  obtain ⟨memo, runs⟩ := Registry.exists_run isRegistry tree
  refine ⟨_, ⟨registry, memo, isRegistry, runs⟩, ?_⟩
  rw [nodesFor_walk given, splitExit_ofText parsed]
  exact List.filter_congr fun id _ => Pattern.holds_ofText parsed tree onLeave id

theorem exists_runsTo_alone {text : String} {selector : Selector}
    (parsed : Selector.parse engine text = .ok selector) (onLeave : Bool) (tree : Tree) :
    ∃ events, RunsTo engine [Pattern.ofText text onLeave] tree events ∧
      nodesFor events (Pattern.ofText text onLeave)
        = (tree.visited onLeave).filter (selector.holds tree engine) := by
  refine exists_runsTo ?_ parsed List.mem_cons_self tree
  simp [Pattern.selector?_ofText parsed]

/-- The text of two selectors with a comma and a space between them denotes the union of the alternatives of
both. Its pattern, alone or beside the patterns of the two, fires on exactly the nodes on which one of the two
fires when it is registered alone, on each of them once, in the order of the walk. -/
theorem parse_joined_fires {first second : String} {left right : Selector}
    (parsedLeft : Selector.parse engine first = .ok left)
    (parsedRight : Selector.parse engine second = .ok right) :
    Selector.parse engine (first ++ ", " ++ second)
        = .ok (.union false (left.alternatives ++ right.alternatives)) ∧
      ∀ (document : Json) (tree : Tree), Tree.ofJson document = .ok tree →
        ∀ (onLeave : Bool) (patterns : List String),
          Pattern.ofText (first ++ ", " ++ second) onLeave ∈ patterns →
          (∀ pattern ∈ patterns,
            pattern ∈ [first ++ ", " ++ second, first, second].map (Pattern.ofText · onLeave)) →
            ∃ events ofFirst ofSecond,
              RunsTo engine patterns tree events ∧
              RunsTo engine [Pattern.ofText first onLeave] tree ofFirst ∧
              RunsTo engine [Pattern.ofText second onLeave] tree ofSecond ∧
              nodesFor events (Pattern.ofText (first ++ ", " ++ second) onLeave)
                = (tree.visited onLeave).filter (fun id =>
                    id ∈ nodesFor ofFirst (Pattern.ofText first onLeave) ∨
                      id ∈ nodesFor ofSecond (Pattern.ofText second onLeave)) ∧
              (nodesFor events (Pattern.ofText (first ++ ", " ++ second) onLeave)).Nodup := by
  have parsedJoined := Selector.parse_joined parsedLeft parsedRight
  refine ⟨parsedJoined, fun document tree built onLeave patterns given only => ?_⟩
  have denote : ∀ pattern ∈ patterns, (Pattern.selector? engine pattern).isSome = true := by
    intro pattern member
    have isOne := only pattern member
    simp only [List.map_cons, List.map_nil, List.mem_cons, List.not_mem_nil, or_false] at isOne
    rcases isOne with rfl | rfl | rfl
    · rw [Pattern.selector?_ofText parsedJoined, Option.isSome_some]
    · rw [Pattern.selector?_ofText parsedLeft, Option.isSome_some]
    · rw [Pattern.selector?_ofText parsedRight, Option.isSome_some]
  obtain ⟨events, runs, nodes⟩ := exists_runsTo denote parsedJoined given tree
  obtain ⟨ofFirst, runsFirst, nodesFirst⟩ := exists_runsTo_alone parsedLeft onLeave tree
  obtain ⟨ofSecond, runsSecond, nodesSecond⟩ := exists_runsTo_alone parsedRight onLeave tree
  refine ⟨events, ofFirst, ofSecond, runs, runsFirst, runsSecond, ?_, ?_⟩
  · rw [nodes, nodesFirst, nodesSecond]
    apply List.filter_congr
    intro id member
    rw [Selector.holds_union_alternatives, Bool.eq_iff_iff]
    simp [member]
  · rw [nodes]
    exact (Tree.nodup_visited built onLeave).filter _

/-- Two types of which one has a mark, in a pattern that fires on leaving. -/
theorem parse_joined_fires_marked :
    ∃ tree events, Tree.ofJson (.object [("type", .string "A"), ("b", .object [("type", .string "B")])])
        = .ok tree ∧
      RunsTo .standard ["A, !B:exit", "A:exit"] tree events ∧
      nodesFor events "A, !B:exit" = [1, 0] := by
  have built : Tree.ofJson (.object [("type", .string "A"), ("b", .object [("type", .string "B")])])
      = .ok _ := rfl
  have parsedLeft : Selector.parse .standard "A" = .ok (.atom false (.identifier "A")) := by
    with_unfolding_all rfl
  have parsedRight : Selector.parse .standard "!B" = .ok (.atom true (.identifier "B")) := by
    with_unfolding_all rfl
  obtain ⟨_, fires⟩ := parse_joined_fires parsedLeft parsedRight
  obtain ⟨events, ofFirst, ofSecond, runs, runsFirst, runsSecond, nodes, _⟩ :=
    fires _ _ built true ["A, !B:exit", "A:exit"] (by decide) (by decide)
  obtain ⟨_, runsAlone, nodesFirst⟩ := exists_runsTo_alone parsedLeft true _
  obtain ⟨_, runsAloneToo, nodesSecond⟩ := exists_runsTo_alone parsedRight true _
  rw [← runsFirst.unique runsAlone] at nodesFirst
  rw [← runsSecond.unique runsAloneToo] at nodesSecond
  rw [nodesFirst, nodesSecond] at nodes
  refine ⟨_, events, built, runs, nodes.trans ?_⟩
  decide +kernel

end TreeLint
