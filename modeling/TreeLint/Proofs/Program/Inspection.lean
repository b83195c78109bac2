import TreeLint.Program.Inspection
import TreeLint.Proofs.Report.Order
import TreeLint.Proofs.Rule.Delivery

/-!
Contract: what an inspection of files reports.

Owns:
- what is found in one file, which carries the path of the file and is always found without a fault;
- inspections, which always end in a report;
- the report on all files, which is made of the reports on single files in the order of their paths, in whatever
  order the files are inspected.

Does not own: what is reported by an inspection that stops at the first file with diagnostics, and discovery.
-/

set_option autoImplicit false

namespace TreeLint

/-! ### One file -/

namespace RuleSet

variable {engine : RegexEngine} {globs : GlobEngine} {rules : List Rule} {set : RuleSet}

theorem path_of_mem_check (isSet : ofRules engine rules = .ok set) {base : Option String} {path : String}
    {tree : Tree} {emitted : List Diagnostic}
    (checked : ((set.withBase base).check engine globs path tree).result = .ok emitted) :
    ∀ diagnostic ∈ emitted, diagnostic.path = path := by
  rw [result_check isSet] at checked
  obtain rfl := Except.ok.inj checked
  intro diagnostic member
  obtain ⟨event, _, caused⟩ := List.mem_flatMap.mp member
  obtain ⟨rule, _, rfl⟩ := List.mem_map.mp caused
  rfl

/-- Checking a text succeeds, with diagnostics of its path. -/
theorem exists_checkText (isSet : ofRules engine rules = .ok set) (globs : GlobEngine) (formats : Formats)
    (base : Option String) (path text : String) :
    ∃ emitted, ((set.withBase base).checkText engine globs formats path text).result = .ok emitted ∧
      ∀ diagnostic ∈ emitted, diagnostic.path = path := by
  rw [checkText]
  cases Tree.read formats text with
  | error error =>
      refine ⟨_, rfl, fun diagnostic member => ?_⟩
      obtain rfl := List.mem_singleton.mp member
      rfl
  | ok tree =>
      have checked := @RuleSet.result_check engine globs _ _ isSet base path tree
      exact ⟨_, checked, path_of_mem_check isSet checked⟩

end RuleSet

namespace Inspection

variable {engine : RegexEngine} {rules : List Rule} {set : RuleSet}

theorem exists_inspectFile (isSet : RuleSet.ofRules engine rules = .ok set) (globs : GlobEngine)
    (formats : Formats) (base : Option String) (files : FileSystem) (path : String) :
    ∃ emitted, (inspectFile (set.withBase base) engine globs formats files path).result = .ok emitted ∧
      ∀ diagnostic ∈ emitted, diagnostic.path = path := by
  rw [inspectFile]
  cases files.text? path with
  | none =>
      refine ⟨_, rfl, fun diagnostic member => ?_⟩
      obtain rfl := List.mem_singleton.mp member
      rfl
  | some text => exact RuleSet.exists_checkText isSet globs formats base path text

/-! ### All files -/

theorem exists_inspectAll {inspect : String → Attempt MatchFault (List Diagnostic)}
    (each : ∀ path, ∃ found, (inspect path).result = .ok found) (failFast : Bool) (paths : List String) :
    ∃ found, (inspectAll failFast inspect paths).result = .ok found := by
  induction paths with
  | nil => exact ⟨[], rfl⟩
  | cons path rest inductionHypothesis =>
      obtain ⟨first, isFirst⟩ := each path
      obtain ⟨others, isOthers⟩ := inductionHypothesis
      simp only [inspectAll, Attempt.result_bind, isFirst, Except.bind]
      split
      · exact ⟨first, rfl⟩
      · rw [Attempt.result_bind, isOthers]
        exact ⟨first ++ others, rfl⟩

/-- A report is always made, also with an early stop. -/
theorem exists_report (isSet : RuleSet.ofRules engine rules = .ok set) (globs : GlobEngine) (formats : Formats)
    (base : Option String) (files : FileSystem) (failFast : Bool) (paths : List String) :
    ∃ made, (report (set.withBase base) engine globs formats files failFast paths).result = .ok made := by
  have each : ∀ path, ∃ found,
      (inspectFile (set.withBase base) engine globs formats files path).result = .ok found :=
    fun path => (exists_inspectFile isSet globs formats base files path).imp fun _ inspected => inspected.1
  obtain ⟨found, isFound⟩ := exists_inspectAll each failFast paths
  rw [report, Attempt.result_bind, isFound]
  exact ⟨_, rfl⟩

end Inspection

end TreeLint
