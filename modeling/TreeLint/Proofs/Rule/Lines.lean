import TreeLint.Proofs.Report.Lines
import TreeLint.Proofs.Rule.Construction
import TreeLint.Proofs.Rule.Safety

/-!
Contract: the lines of what a rule set reports on a text.

Owns:
- `RuleSet.Finds`, by which a rule has something to report in a text, and the diagnostics for a text as those of
  the rules that find something;
- `Rule.Plain` and `RuleConfig.Plain`, by which what a rule reports is on one line, and where the texts come from
  that break it: names, messages, and selectors of which a message is made;
- `Formats.TellsLine`, by which what is said about a text that is no document is on one line;
- the plain reports that have one line for each diagnostic.

Does not own: diagnostics of several files.
-/

set_option autoImplicit false

namespace TreeLint

open Text

/-! ### Plain rules -/

/-- What the rule reports is on one line, if the path is. -/
def Rule.Plain (rule : Rule) : Prop := Unbroken rule.name ∧ IsLine rule.message

/-- The message that a rule brings is a line. If it brings none, its selectors stand in the message, and no line
ends inside them. -/
def RuleConfig.Plain (name : String) (settings : RuleConfig) : Prop :=
  Unbroken name ∧
    match settings.message with
    | some message => IsLine message
    | none => ∀ selector ∈ settings.selectors, Unbroken selector

theorem Rule.isLine_defaultMessage_iff {selectors : List String} :
    IsLine (defaultMessage selectors) ↔ ∀ selector ∈ selectors, Unbroken selector := by
  have last : (defaultMessage selectors).toList.getLast? ≠ some '\r' := by
    rw [defaultMessage, String.toList_append, List.getLast?_append_of_ne_nil _ (by decide)]
    decide
  have opening : Unbroken "matches \x60" := by decide
  have closing : Unbroken "\x60" := by decide
  rw [IsLine, and_iff_left last, defaultMessage, unbroken_append, unbroken_append, and_iff_left closing,
    and_iff_right opening]
  exact unbroken_intercalate (by decide)

theorem RuleConfig.plain_toRule_iff {name : String} {settings : RuleConfig} :
    (settings.toRule name).Plain ↔ settings.Plain name := by
  rw [Rule.Plain, RuleConfig.Plain, toRule]
  cases settings.message with
  | none => rw [Option.getD_none, Rule.isLine_defaultMessage_iff]
  | some message => rfl

theorem Rule.plain_adhoc_iff {pattern : String} : (Rule.adhoc pattern).Plain ↔ Unbroken pattern := by
  have named : Unbroken adhocName := by decide
  rw [Plain, adhoc, isLine_defaultMessage_iff, List.forall_mem_singleton, and_iff_right named]

/-- What is said about a text, if it is no document, is on one line. -/
def Formats.TellsLine (formats : Formats) (text : String) : Prop :=
  ∀ reason, formats.json text = .error reason → IsLine reason

/-- The readers of the standard formats say nothing that breaks a line. -/
theorem Formats.tellsLine_standard (text : String) : standard.TellsLine text := by
  have plain : IsLine malformed := by decide
  intro reason isReason
  cases found : Json.read? text.toList with
  | none =>
      obtain rfl : malformed = reason := by simpa [standard, found] using isReason
      exact plain
  | some document => simp [standard, found] at isReason

namespace RuleSet

variable {engine : RegexEngine} {globs : GlobEngine} {formats : Formats} {rules : List Rule} {set : RuleSet}
  {path : String}

/-! ### Findings -/

/-- A rule has something to report: the text is a tree, the rule applies to the path, and one of its selectors
matches a node. -/
def Finds (set : RuleSet) (engine : RegexEngine) (globs : GlobEngine) (formats : Formats)
    (path text : String) (rule : Rule) : Prop :=
  ∃ tree, Tree.read formats text = .ok tree ∧ set.applies globs path rule = true ∧
    ∃ pattern ∈ rule.selectors, ∃ id < tree.size, Pattern.holds tree engine pattern id = true

theorem mem_check_iff (isSet : ofRules engine rules = .ok set) {base : Option String} {document : Json}
    {tree : Tree} (built : Tree.ofJson document = .ok tree) {emitted : List Diagnostic}
    (checked : ((set.withBase base).check engine globs path tree).result = .ok emitted)
    (diagnostic : Diagnostic) :
    diagnostic ∈ emitted ↔
      ∃ rule ∈ rules, (set.withBase base).applies globs path rule = true ∧
        ∃ pattern ∈ rule.selectors, ∃ id < tree.size, Pattern.holds tree engine pattern id = true ∧
          diagnosticFor path tree id rule = diagnostic := by
  rw [result_check isSet] at checked
  obtain rfl := Except.ok.inj checked
  simp only [List.mem_flatMap, List.mem_map, List.mem_filter, Bool.and_eq_true, List.contains_iff_mem]
  constructor
  · rintro ⟨⟨pattern, id⟩, ⟨step, inWalk, fires⟩, rule, ⟨isRule, active, isSelector⟩, caused⟩
    obtain ⟨isTurn, _, holds⟩ := (mem_bruteForce_iff step pattern id).mp fires
    have inTree := (Tree.mem_walk_iff built step).mp inWalk
    rw [isTurn, Pattern.turn_node] at inTree
    exact ⟨rule, isRule, active, pattern, isSelector, id, inTree, holds, caused⟩
  · rintro ⟨rule, isRule, active, pattern, isSelector, id, inTree, holds, caused⟩
    have inWalk : Pattern.turn pattern id ∈ tree.walk := by
      rwa [Tree.mem_walk_iff built, Pattern.turn_node]
    have registered : pattern ∈ patternsOf rules := List.mem_flatMap.mpr ⟨rule, isRule, isSelector⟩
    exact ⟨⟨pattern, id⟩, ⟨_, inWalk, (mem_bruteForce_iff _ pattern id).mpr ⟨rfl, registered, holds⟩⟩,
      rule, ⟨isRule, active, isSelector⟩, caused⟩

/-- A diagnostic is reported on a tree exactly if it is that of a rule that applies, for a node that one of the selectors
of the rule matches. -/
theorem mem_lint_iff (isSet : ofRules engine rules = .ok set) {base : Option String} {text : String} {tree : Tree}
    (isTree : Tree.read formats text = .ok tree) {diagnostics : List Diagnostic}
    (linted : (set.withBase base).lint engine globs formats path text = .ok diagnostics) (diagnostic : Diagnostic) :
    diagnostic ∈ diagnostics ↔
      ∃ rule ∈ rules, (set.withBase base).applies globs path rule = true ∧
        ∃ pattern ∈ rule.selectors, ∃ id < tree.size, Pattern.holds tree engine pattern id = true ∧
          diagnosticFor path tree id rule = diagnostic := by
  obtain ⟨document, built⟩ := Tree.exists_ofJson_of_read isTree
  obtain ⟨emitted, checked⟩ : ∃ emitted,
      ((set.withBase base).check engine globs path tree).result = .ok emitted :=
    ⟨_, result_check isSet base path tree⟩
  rw [lint, checkText, isTree] at linted
  change (check _ engine globs path tree).result.map Diagnostic.sorted = _ at linted
  rw [checked] at linted
  obtain rfl := Except.ok.inj linted
  rw [← mem_check_iff isSet built checked]
  exact (List.mergeSort_perm _ _).mem_iff

/-- Of a text that is no tree, this alone is reported. -/
theorem lint_of_error {text : String} {error : TreeError} (noTree : Tree.read formats text = .error error) :
    set.lint engine globs formats path text = .ok [loadDiagnostic path error.message] := by
  rw [lint, checkText, noTree]
  exact congrArg Except.ok (List.mergeSort_singleton _)

/-! ### Findings on one line -/

theorem isLine_diagnosticFor_iff (unbroken : Unbroken path) {tree : Tree} {id : Nat} {rule : Rule} :
    IsLine (diagnosticFor path tree id rule).text ↔ rule.Plain := by
  rw [Diagnostic.isLine_text_iff]
  exact and_iff_right unbroken

theorem isLine_tooManyNodes : IsLine TreeError.tooManyNodes.message := by
  change IsLine ("tree has more than " ++ toString Tree.lastNumber ++ " nodes")
  have counts : Unbroken ("tree has more than " ++ toString Tree.lastNumber) :=
    unbroken_append.mpr ⟨by decide, unbroken_toString _⟩
  refine ⟨unbroken_append.mpr ⟨counts, by decide⟩, ?_⟩
  rw [String.toList_append, List.getLast?_append_of_ne_nil _ (by decide)]
  decide

/-- The words about a text that is no tree are a line, but for those that come from the reader of documents. -/
theorem isLine_message_iff {text : String} {error : TreeError} (noTree : Tree.read formats text = .error error) :
    IsLine error.message ↔ formats.TellsLine text := by
  rw [Formats.TellsLine]
  rcases Tree.error_of_read noTree with ⟨reason, isReason, rfl⟩ | ⟨document, isDocument, isOwn⟩
  · rw [TreeError.message_invalidJson, isLine_append (by decide), and_iff_right (by decide), isReason]
    exact ⟨fun isLine other same => Except.error.inj same ▸ isLine, fun each => each reason rfl⟩
  · rw [isDocument]
    refine iff_of_true ?_ nofun
    rcases isOwn with rfl | rfl
    · exact show IsLine TreeError.rootNotNode.message by decide
    · exact isLine_tooManyNodes

theorem isLine_loadDiagnostic_iff (unbroken : Unbroken path) {message : String} :
    IsLine (loadDiagnostic path message).text ↔ IsLine message := by
  have named : Unbroken loadRule := by decide
  rw [Diagnostic.isLine_text_iff]
  simp only [loadDiagnostic, unbroken, named, true_and]

/-- The diagnostics for a text are on one line each exactly if the rules that find something are plain, and what the
reader of documents says about it is a line. -/
theorem isLine_lint_iff (isSet : ofRules engine rules = .ok set) (base : Option String)
    (unbroken : Unbroken path) {text : String} {diagnostics : List Diagnostic}
    (linted : (set.withBase base).lint engine globs formats path text = .ok diagnostics) :
    (∀ diagnostic ∈ diagnostics, IsLine diagnostic.text) ↔
      (∀ rule ∈ rules, (set.withBase base).Finds engine globs formats path text rule → rule.Plain) ∧
        formats.TellsLine text := by
  cases isTree : Tree.read formats text with
  | error error =>
      obtain rfl := Except.ok.inj ((lint_of_error isTree).symm.trans linted)
      rw [List.forall_mem_singleton, isLine_loadDiagnostic_iff unbroken, isLine_message_iff isTree]
      refine (and_iff_right ?_).symm
      rintro rule _ ⟨tree, isRead, _⟩
      rw [isTree] at isRead
      contradiction
  | ok tree =>
      have tells : formats.TellsLine text := by
        intro reason isReason
        rw [Tree.read, isReason] at isTree
        contradiction
      rw [and_iff_left tells]
      constructor
      · rintro eachLine rule isRule ⟨found, isFound, active, pattern, isSelector, id, inTree, holds⟩
        have reported := (mem_lint_iff isSet isFound linted (diagnosticFor path found id rule)).mpr
          ⟨rule, isRule, active, pattern, isSelector, id, inTree, holds, rfl⟩
        exact (isLine_diagnosticFor_iff unbroken).mp (eachLine _ reported)
      · intro eachPlain diagnostic reported
        obtain ⟨rule, isRule, active, pattern, isSelector, id, inTree, holds, rfl⟩ :=
          (mem_lint_iff isSet isTree linted diagnostic).mp reported
        exact (isLine_diagnosticFor_iff unbroken).mpr
          (eachPlain rule isRule ⟨tree, isTree, active, pattern, isSelector, id, inTree, holds⟩)

theorem forall_mem_asked_iff {config : Config} {adhoc : List String} {filter : RuleFilter} {p : Rule → Prop} :
    (∀ rule ∈ asked config adhoc filter, p rule) ↔
      (∀ entry ∈ filter.wanted config.rules, p (entry.2.toRule entry.1)) ∧
        (filter.allows Rule.adhocName = true → ∀ pattern ∈ adhoc, p (Rule.adhoc pattern)) := by
  rw [asked, List.forall_mem_append, List.forall_mem_map]
  split
  · rename_i allowed
    rw [List.forall_mem_map, forall_prop_of_true allowed]
  · rename_i forbidden
    exact and_congr_right fun _ => iff_of_true (List.forall_mem_nil _) fun allowed => absurd allowed forbidden

/-- The report on a text under a path without a line feed has the lines of its diagnostics, in their order, then an
empty line and the summary. It has one line for each diagnostic exactly if no line ends inside the name or the
message of a rule that finds something, nor inside a selector that stands in its message; if none of the messages
ends in a carriage return; and if what is said about a text that is no document is a line too. -/
theorem hasLineEach_lint_iff {config : Config} {adhoc : List String} {filter : RuleFilter}
    (isSet : ofConfig engine globs config adhoc filter = .ok set) (unbroken : Unbroken path) (text : String)
    (fileCount : Nat) :
    ∃ diagnostics, set.lint engine globs formats path text = .ok diagnostics ∧
      Text.lines ((⟨diagnostics, fileCount⟩ : Report).render .text)
        = (diagnostics.flatMap fun diagnostic => Text.lines (diagnostic.text ++ "\n"))
          ++ ["", (⟨diagnostics, fileCount⟩ : Report).summary] ∧
      ((⟨diagnostics, fileCount⟩ : Report).HasLineEach ↔
        (∀ entry ∈ filter.wanted config.rules,
          set.Finds engine globs formats path text (entry.2.toRule entry.1) → entry.2.Plain entry.1) ∧
        (filter.allows Rule.adhocName = true → ∀ pattern ∈ adhoc,
          set.Finds engine globs formats path text (Rule.adhoc pattern) → Unbroken pattern) ∧
        formats.TellsLine text) := by
  obtain ⟨bare, isBare, rfl⟩ := exists_ofRules_of_ofConfig isSet
  obtain ⟨diagnostics, linted⟩ := exists_lint isBare formats (configDir config) path text
  refine ⟨diagnostics, linted, Report.lines_render _, ?_⟩
  rw [Report.hasLineEach_iff, isLine_lint_iff isBare _ unbroken linted, forall_mem_asked_iff]
  simp only [RuleConfig.plain_toRule_iff, Rule.plain_adhoc_iff, and_assoc]

/-- A rule with a message in which a second offense seems to be reported. -/
def forging : Config :=
  ⟨none, [("Style/A", ⟨["A"], some "Unexpected A\na.json:9:9: E: Style/B: Unexpected B", none, true, []⟩)], []⟩

theorem finds_forging {set : RuleSet} :
    set.Finds .standard .standard .standard "a.json" "\x7b\"type\":\"A\"\x7d"
      ⟨"Style/A", ["A"], "Unexpected A\na.json:9:9: E: Style/B: Unexpected B", .warning, []⟩ := by
  have isTree : Tree.read .standard "\x7b\"type\":\"A\"\x7d"
      = .ok ⟨#[⟨"A", none, [], [("type", .string "A")]⟩]⟩ := by
    cbv
  refine ⟨_, isTree, rfl, "A", List.mem_singleton_self _, 0, Nat.one_pos, ?_⟩
  decide +kernel

/-- The message breaks the line of its diagnostic. -/
theorem hasLineEach_lint_iff_forging :
    ∃ set diagnostics,
      ofConfig .standard .standard forging [] .all = .ok set ∧
      set.lint .standard .standard .standard "a.json" "\x7b\"type\":\"A\"\x7d" = .ok diagnostics ∧
      ¬ (⟨diagnostics, 1⟩ : Report).HasLineEach := by
  have accepted : (ofConfig .standard .standard forging [] .all).toOption.isSome = true := by
    decide +kernel
  cases isSet : ofConfig .standard .standard forging [] .all with
  | error error =>
      rw [isSet] at accepted
      contradiction
  | ok set =>
      obtain ⟨diagnostics, linted, _, hasLineEach_iff⟩ :=
        hasLineEach_lint_iff isSet (show Unbroken "a.json" by decide) "\x7b\"type\":\"A\"\x7d" 1
      refine ⟨set, diagnostics, rfl, linted, fun hasLineEach => ?_⟩
      have plain := (hasLineEach_iff.mp hasLineEach).1 _ (List.mem_singleton_self _) finds_forging
      exact absurd plain.2 (by decide)

end RuleSet

end TreeLint
