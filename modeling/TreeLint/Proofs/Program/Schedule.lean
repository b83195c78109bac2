import TreeLint.Program.Schedule
import TreeLint.Proofs.Lists
import TreeLint.Proofs.Program.Inspection

/-!
Contract: what an inspection reports that stops early.

Owns:
- what is known after looks at files in an order: without an early stop, what each file holds; after an early
  stop, nothing new;
- the files of a list in the order of the list, for which an inspection is the one that the program makes;
- the report of an inspection that stops early, which is that on the first file in which something is found.

Does not own: what is found in one file.
-/

set_option autoImplicit false

namespace TreeLint

namespace Inspection

variable {inspect : String → Attempt MatchFault (List Diagnostic)} {emitted : String → List Diagnostic}
  {failFast : Bool} {paths : List String} {progress : Progress} {order : List Nat} {number : Nat} {path : String}

/-! ### Looks -/

/-- What is known after a look at the file with a number, in which a file holds what `emitted` says. -/
def Progress.next (failFast : Bool) (emitted : String → List Diagnostic) (paths : List String)
    (progress : Progress) (number : Nat) : Progress :=
  match paths[number]? with
  | none => progress
  | some path => if failFast && progress.stopped then progress else progress.note failFast number (emitted path)

theorem result_look (each : ∀ path, (inspect path).result = .ok (emitted path)) (progress : Progress)
    (number : Nat) :
    (look failFast inspect paths progress number).result = .ok (progress.next failFast emitted paths number) := by
  rw [look, Progress.next]
  cases paths[number]? with
  | none => rfl
  | some path =>
      simp only
      split
      · rfl
      · rw [Attempt.result_bind, each path]
        rfl

/-- A run of looks never fails if no inspection of a file does. -/
theorem result_looks (each : ∀ path, (inspect path).result = .ok (emitted path)) (progress : Progress)
    (order : List Nat) :
    (order.foldlM (look failFast inspect paths) progress).result
      = .ok (order.foldl (Progress.next failFast emitted paths) progress) := by
  induction order generalizing progress with
  | nil => rfl
  | cons number rest inductionHypothesis =>
      rw [List.foldlM_cons, Attempt.result_bind, result_look each, List.foldl_cons]
      exact inductionHypothesis _

theorem looks_of_stopped (stopped : progress.stopped = true) (order : List Nat) :
    order.foldl (Progress.next true emitted paths) progress = progress := by
  have unchanged : ∀ number, progress.next true emitted paths number = progress := by
    intro number
    rw [Progress.next, stopped]
    cases paths[number]? <;> rfl
  induction order with
  | nil => rfl
  | cons number rest inductionHypothesis => rw [List.foldl_cons, unchanged, inductionHypothesis]

/-- Once an inspection has stopped, nothing is looked at. -/
theorem result_looks_of_stopped (stopped : progress.stopped = true) (order : List Nat) :
    (order.foldlM (look true inspect paths) progress).result = .ok progress := by
  have unchanged : ∀ number, look true inspect paths progress number = pure progress := by
    intro number
    rw [look, stopped]
    cases paths[number]? <;> rfl
  induction order with
  | nil => rfl
  | cons number rest inductionHypothesis =>
      rw [List.foldlM_cons, unchanged, Attempt.result_bind]
      exact inductionHypothesis

/-! ### All files -/

/-- A look that is not left out fills the place of its file. -/
theorem found_next (inRange : number < paths.length) (sameLength : progress.found.length = paths.length)
    (looked : Nat) :
    (progress.next false emitted paths looked).found[number]?
      = if looked = number then paths[number]?.map emitted else progress.found[number]? := by
  rw [Progress.next]
  cases isPath : paths[looked]? with
  | none =>
      have outside : paths.length ≤ looked := List.getElem?_eq_none_iff.mp isPath
      rw [if_neg (Nat.ne_of_gt (Nat.lt_of_lt_of_le inRange outside))]
  | some path =>
      simp only [Bool.false_and, Bool.false_eq_true, if_false, Progress.note, List.getElem?_set, sameLength]
      split
      · rename_i same
        rw [if_pos (same ▸ inRange), ← same, isPath, Option.map_some]
      · rfl

theorem length_found_next (looked : Nat) :
    (progress.next failFast emitted paths looked).found.length = progress.found.length := by
  rw [Progress.next]
  cases paths[looked]? with
  | none => rfl
  | some path =>
      simp only
      split
      · rfl
      · exact List.length_set

/-- Without an early stop, a run fills the places of the files that it looks at, and no others. -/
theorem found_looks (inRange : number < paths.length) (sameLength : progress.found.length = paths.length) :
    (order.foldl (Progress.next false emitted paths) progress).found[number]?
      = if number ∈ order then paths[number]?.map emitted else progress.found[number]? := by
  induction order generalizing progress with
  | nil => rw [if_neg List.not_mem_nil, List.foldl_nil]
  | cons looked rest inductionHypothesis =>
      rw [List.foldl_cons, inductionHypothesis ((length_found_next looked).trans sameLength),
        found_next inRange sameLength]
      by_cases later : number ∈ rest
      · rw [if_pos later, if_pos (List.mem_cons_of_mem _ later)]
      · simp only [later, List.mem_cons, or_false, if_false, eq_comm]

theorem length_found_looks :
    (order.foldl (Progress.next failFast emitted paths) progress).found.length = progress.found.length := by
  induction order generalizing progress with
  | nil => rfl
  | cons looked rest inductionHypothesis => rw [List.foldl_cons, inductionHypothesis, length_found_next]

/-- Without an early stop, it is found in each file what the file holds, whatever the order. -/
theorem found_looks_of_perm (isOrder : order.Perm (List.range paths.length)) :
    (order.foldl (Progress.next false emitted paths) (.start paths.length)).found = paths.map emitted := by
  have sameLength : (Progress.start paths.length).found.length = paths.length := List.length_replicate
  refine List.ext_getElem? fun number => ?_
  rw [List.getElem?_map]
  by_cases inRange : number < paths.length
  · rw [found_looks inRange sameLength, if_pos (isOrder.mem_iff.mpr (List.mem_range.mpr inRange))]
  · have outside := Nat.le_of_not_lt inRange
    rw [List.getElem?_eq_none outside, Option.map_none, List.getElem?_eq_none]
    rw [length_found_looks, sameLength]
    exact outside

/-! ### The first file with diagnostics -/

/-- Something is held by the file with a number. -/
def Holds (emitted : String → List Diagnostic) (paths : List String) (number : Nat) : Prop :=
  ∃ path, paths[number]? = some path ∧ emitted path ≠ []

/-- Looks at files that hold nothing leave it at the start. -/
theorem looks_of_nothing (nothing : ∀ number ∈ order, ¬ Holds emitted paths number) :
    order.foldl (Progress.next failFast emitted paths) (.start paths.length) = .start paths.length := by
  induction order with
  | nil => rfl
  | cons number rest inductionHypothesis =>
      rw [List.forall_mem_cons] at nothing
      have unchanged : (Progress.start paths.length).next failFast emitted paths number
          = .start paths.length := by
        rw [Progress.next]
        cases isPath : paths[number]? with
        | none => rfl
        | some path =>
            have holdsNothing : emitted path = [] := by
              by_contra holds
              exact nothing.1 ⟨path, isPath, holds⟩
            simp [Progress.start, Progress.note, holdsNothing, List.set_replicate_self]
      rw [List.foldl_cons, unchanged, inductionHypothesis nothing.2]

/-- An early stop leaves what the first file holds that holds something. -/
theorem found_looks_of_first (isPath : paths[number]? = some path)
    (isFirst : FirstWith (Holds emitted paths) order number) :
    (order.foldl (Progress.next true emitted paths) (.start paths.length)).found.flatten = emitted path := by
  obtain ⟨before, later, rfl, ⟨_, isHolder, holds⟩, nothing⟩ := isFirst
  obtain rfl := Option.some.inj (isPath.symm.trans isHolder)
  have isStop : (Progress.start paths.length).next true emitted paths number
      = ⟨true, (List.replicate paths.length []).set number (emitted path)⟩ := by
    simp [Progress.next, isPath, Progress.start, Progress.note, holds]
  rw [List.foldl_append, looks_of_nothing nothing, List.foldl_cons, isStop, looks_of_stopped rfl]
  exact flatten_set_replicate (List.getElem?_eq_some_iff.mp isPath).1 (emitted path)

/-! ### The order of the list -/

/-- In the order of the list, looks find what an inspection of one file after another finds. The files `before`
have been looked at already. -/
theorem result_looks_range' (before rest : List String) (found : List (List Diagnostic))
    (sameLength : found.length = before.length) :
    ((List.range' before.length rest.length).foldlM (look failFast inspect (before ++ rest))
        ⟨false, found ++ List.replicate rest.length []⟩).result.map (fun progress => progress.found.flatten)
      = (inspectAll failFast inspect rest).result.map (found.flatten ++ ·) := by
  induction rest generalizing before found with
  | nil => simp [inspectAll, Except.map]
  | cons path rest inductionHypothesis =>
      have isPath : (before ++ path :: rest)[before.length]? = some path := by simp
      rw [List.length_cons, List.range'_succ, List.foldlM_cons, look, isPath, inspectAll]
      simp only [Bool.and_false, Bool.false_eq_true, if_false, Attempt.result_bind]
      cases (inspect path).result with
      | error fault => rfl
      | ok held =>
          have placed : (found ++ List.replicate (rest.length + 1) []).set before.length held
              = (found ++ [held]) ++ List.replicate rest.length [] := by
            rw [List.replicate_succ, List.set_append_right _ _ (Nat.le_of_eq sameLength), sameLength,
              Nat.sub_self, List.set_cons_zero, List.append_assoc, List.singleton_append]
          simp only [Except.bind, Attempt.result_pure, Progress.note, Bool.false_or, placed]
          split
          · rename_i stops
            obtain ⟨rfl, _⟩ := Bool.and_eq_true_iff.mp stops
            rw [stops, result_looks_of_stopped rfl]
            simp [Except.map]
          · rename_i goesOn
            rw [Bool.not_eq_true] at goesOn
            have further := inductionHypothesis (before ++ [path]) (found ++ [held]) (by simp [sameLength])
            rw [List.length_append, List.length_singleton, List.append_assoc, List.singleton_append] at further
            rw [goesOn, further, Attempt.result_bind]
            cases (inspectAll failFast inspect rest).result with
            | error fault => rfl
            | ok others => simp [Except.map, Except.bind]

theorem result_inspectInOrder (inspect : String → Attempt MatchFault (List Diagnostic)) (order : List Nat) :
    (inspectInOrder failFast inspect paths order).result
      = (order.foldlM (look failFast inspect paths) (.start paths.length)).result.map
          fun progress => progress.found.flatten := by
  rw [inspectInOrder, Attempt.result_bind]
  cases (order.foldlM (look failFast inspect paths) (.start paths.length)).result <;> rfl

theorem result_inspectInOrder_range (inspect : String → Attempt MatchFault (List Diagnostic)) :
    (inspectInOrder failFast inspect paths (List.range paths.length)).result
      = (inspectAll failFast inspect paths).result := by
  have same := @result_looks_range' inspect failFast [] paths [] rfl
  rw [List.length_nil, List.nil_append, List.nil_append, ← List.range_eq_range'] at same
  rw [result_inspectInOrder, Progress.start, same]
  cases (inspectAll failFast inspect paths).result <;> rfl

/-- The report that the program makes is the one in the order of the list. -/
theorem result_reportInOrder_range (set : RuleSet) (engine : RegexEngine) (globs : GlobEngine)
    (formats : Formats) (files : FileSystem) (failFast : Bool) (paths : List String) :
    (reportInOrder set engine globs formats files failFast paths (List.range paths.length)).result
      = (report set engine globs formats files failFast paths).result := by
  rw [reportInOrder, report, Attempt.result_bind, Attempt.result_bind, result_inspectInOrder_range]

variable {set : RuleSet} {engine : RegexEngine} {globs : GlobEngine} {formats : Formats} {files : FileSystem}

theorem result_reportInOrder
    (each : ∀ path, (inspectFile set engine globs formats files path).result = .ok (emitted path)) :
    (reportInOrder set engine globs formats files failFast paths order).result
      = .ok ⟨Diagnostic.sorted
          (order.foldl (Progress.next failFast emitted paths) (.start paths.length)).found.flatten,
        paths.length⟩ := by
  rw [reportInOrder, Attempt.result_bind, result_inspectInOrder, result_looks each]
  rfl

/-! ### Early stops -/

/-- How a report with an early stop relates to what the files hold and to the report without one. -/
structure StopsEarly (emitted : String → List Diagnostic) (paths : List String) (order : List Nat)
    (early full : Report) : Prop where
  /-- It is the report on the first file that holds something. -/
  first : ∀ number path, paths[number]? = some path → FirstWith (Holds emitted paths) order number →
    early.diagnostics = Diagnostic.sorted (emitted path) ∧
      ∀ diagnostic ∈ early.diagnostics, diagnostic.path = path
  nothing : (∀ path ∈ paths, emitted path = []) → early.diagnostics = []
  isEmpty_iff : early.diagnostics = [] ↔ full.diagnostics = []
  sublist : paths.Nodup → early.diagnostics.Sublist full.diagnostics
  fileCount : early.fileCount = full.fileCount

theorem sorted_eq_nil_iff {diagnostics : List Diagnostic} :
    Diagnostic.sorted diagnostics = [] ↔ diagnostics = [] := by
  rw [← List.length_eq_zero_iff, ← List.length_eq_zero_iff, Diagnostic.sorted, List.length_mergeSort]

/-- Either no file of a list holds something, or one of them is the first in any order. -/
theorem nothing_or_first (isOrder : order.Perm (List.range paths.length)) :
    (∀ path ∈ paths, emitted path = []) ∨
      ∃ number path, paths[number]? = some path ∧ path ∈ paths ∧ emitted path ≠ [] ∧
        FirstWith (Holds emitted paths) order number := by
  by_cases nothing : ∀ path ∈ paths, emitted path = []
  · exact .inl nothing
  · push Not at nothing
    obtain ⟨path, member, holds⟩ := nothing
    obtain ⟨number, isPath⟩ := List.mem_iff_getElem?.mp member
    have inOrder : number ∈ order :=
      isOrder.mem_iff.mpr (List.mem_range.mpr (List.getElem?_eq_some_iff.mp isPath).1)
    have holdsSome : Holds emitted paths number := ⟨path, isPath, holds⟩
    obtain ⟨first, isFirst⟩ := exists_firstWith inOrder holdsSome
    obtain ⟨firstPath, isFirstPath, firstHolds⟩ := isFirst.holds
    exact .inr ⟨first, firstPath, isFirstPath, List.mem_of_getElem? isFirstPath, firstHolds, isFirst⟩

theorem found_looks_of_nothing (nothing : ∀ path ∈ paths, emitted path = []) (order : List Nat) :
    (order.foldl (Progress.next failFast emitted paths) (.start paths.length)).found.flatten = [] := by
  rw [looks_of_nothing, Progress.start, List.flatten_replicate_nil]
  rintro number _ ⟨path, isPath, holds⟩
  exact holds (nothing path (List.mem_of_getElem? isPath))

theorem stopsEarly (isOrder : order.Perm (List.range paths.length))
    (ofPath : ∀ path, ∀ diagnostic ∈ emitted path, diagnostic.path = path) :
    StopsEarly emitted paths order
      ⟨Diagnostic.sorted
          (order.foldl (Progress.next true emitted paths) (.start paths.length)).found.flatten, paths.length⟩
      ⟨Diagnostic.sorted (paths.flatMap emitted), paths.length⟩ where
  first number path isPath isFirst := by
    rw [found_looks_of_first isPath isFirst]
    exact ⟨rfl, fun diagnostic member => ofPath path diagnostic (Diagnostic.mem_sorted_iff.mp member)⟩
  nothing nothing := by rw [found_looks_of_nothing nothing, sorted_eq_nil_iff]
  isEmpty_iff := by
    rw [sorted_eq_nil_iff, sorted_eq_nil_iff, List.flatMap_eq_nil_iff]
    rcases nothing_or_first isOrder with nothing | ⟨number, path, isPath, member, holds, isFirst⟩
    · exact ⟨fun _ => nothing, fun _ => found_looks_of_nothing nothing order⟩
    · rw [found_looks_of_first isPath isFirst]
      exact ⟨fun isNothing => absurd isNothing holds, fun nothing => nothing path member⟩
  sublist distinct := by
    rcases nothing_or_first isOrder with nothing | ⟨number, path, isPath, member, holds, isFirst⟩
    · rw [found_looks_of_nothing nothing, sorted_eq_nil_iff.mpr rfl]
      exact List.nil_sublist _
    · -- The report on one file is a block of the report on all of them.
      rw [found_looks_of_first isPath isFirst, Diagnostic.sorted_flatMap distinct (.refl paths) ofPath]
      have isBlock : Diagnostic.sorted (emitted path)
          ∈ (paths.mergeSort (· ≤ ·)).map fun path => Diagnostic.sorted (emitted path) :=
        List.mem_map_of_mem ((List.mergeSort_perm paths _).mem_iff.mpr member)
      exact List.sublist_flatten_of_mem isBlock
  fileCount := rfl

/-- With an early stop, the report on files that are looked at one at a time, in whatever order, is that on the
first file in which something is found, and is empty if there is no such file. It is empty exactly if the report
without an early stop is, which is the same for all orders; it is a part of that report if the paths differ, and
counts as many files. The reports that the program makes are those in the order of the list. -/
theorem exists_early_report {rules : List Rule} (isSet : RuleSet.ofRules engine rules = .ok set)
    (globs : GlobEngine) (formats : Formats) (base : Option String) (files : FileSystem)
    (isOrder : order.Perm (List.range paths.length)) :
    ∃ (emitted : String → List Diagnostic) (early full : Report),
      (∀ path, (inspectFile (set.withBase base) engine globs formats files path).result = .ok (emitted path)) ∧
      (reportInOrder (set.withBase base) engine globs formats files true paths order).result = .ok early ∧
      (∀ other, other.Perm (List.range paths.length) →
        (reportInOrder (set.withBase base) engine globs formats files false paths other).result = .ok full) ∧
      (∀ failFast, (reportInOrder (set.withBase base) engine globs formats files failFast paths
            (List.range paths.length)).result
          = (report (set.withBase base) engine globs formats files failFast paths).result) ∧
      StopsEarly emitted paths order early full := by
  choose emitted inspected ofPath using exists_inspectFile isSet globs formats base files
  refine ⟨emitted, _, _, inspected, result_reportInOrder inspected, fun other isOther => ?_,
    fun failFast => result_reportInOrder_range _ engine globs formats files failFast paths,
    stopsEarly isOrder ofPath⟩
  rw [result_reportInOrder inspected, found_looks_of_perm isOther, List.flatMap_def]

def twoFiles : FileSystem :=
  ⟨.directory
    [("a.json", .file "\x7b\"type\":\"A\"\x7d".toUTF8.toList),
      ("b.json", .file "\x7b\"type\":\"B\"\x7d".toUTF8.toList)], [], fun _ => "no such file"⟩

/-- The file without anything is looked at first and does not stop the inspection, a missing file does, and the
file with something to report is left out. -/
theorem exists_early_report_missing :
    ∃ set early full,
      RuleSet.ofRules .standard [⟨"One", ["A"], "no A", .error, []⟩] = .ok set ∧
      [1, 2, 0].Perm (List.range ["a.json", "b.json", "c.json"].length) ∧
      (reportInOrder (set.withBase none) .standard .standard .standard twoFiles true ["a.json", "b.json", "c.json"]
        [1, 2, 0]).result = .ok early ∧
      (report (set.withBase none) .standard .standard .standard twoFiles false
        ["a.json", "b.json", "c.json"]).result = .ok full ∧
      early.diagnostics = [RuleSet.loadDiagnostic "c.json" (unreadable "no such file")] ∧
      early.diagnostics.Sublist full.diagnostics := by
  have accepted : (RuleSet.ofRules .standard [⟨"One", ["A"], "no A", .error, []⟩]).toOption.isSome = true := by
    decide +kernel
  cases isSet : RuleSet.ofRules .standard [⟨"One", ["A"], "no A", .error, []⟩] with
  | error error =>
      rw [isSet] at accepted
      contradiction
  | ok set =>
      have isOrder : [1, 2, 0].Perm (List.range ["a.json", "b.json", "c.json"].length) := by decide
      obtain ⟨emitted, early, full, inspected, isEarly, isFull, isReport, stops⟩ :=
        exists_early_report isSet .standard .standard none twoFiles isOrder
      have atB : emitted "b.json" = [] := by
        have isText : twoFiles.text? "b.json" = some "\x7b\"type\":\"B\"\x7d" := by decide +kernel
        have isTree : Tree.read .standard "\x7b\"type\":\"B\"\x7d"
            = .ok ⟨#[⟨"B", none, [], [("type", .string "B")]⟩]⟩ := by
          cbv
        have noEvents : (Tree.walk ⟨#[⟨"B", none, [], [("type", .string "B")]⟩]⟩).flatMap
            (bruteForce ⟨#[⟨"B", none, [], [("type", .string "B")]⟩]⟩ .standard
              (RuleSet.patternsOf [⟨"One", ["A"], "no A", .error, []⟩])) = [] := by
          decide +kernel
        have found := inspected "b.json"
        rw [inspectFile, isText] at found
        simp only [RuleSet.checkText, isTree, RuleSet.result_check isSet, noEvents] at found
        exact (Except.ok.inj found).symm
      have atC : emitted "c.json" = [RuleSet.loadDiagnostic "c.json" (unreadable "no such file")] := by
        have found := inspected "c.json"
        rw [inspectFile, show twoFiles.text? "c.json" = none by decide +kernel] at found
        exact (Except.ok.inj found).symm
      have isFirst : FirstWith (Holds emitted ["a.json", "b.json", "c.json"]) [1, 2, 0] 2 := by
        refine ⟨[1], [0], rfl, ⟨"c.json", rfl, by simp [atC]⟩, fun number member => ?_⟩
        obtain rfl := List.mem_singleton.mp member
        rintro ⟨path, isPath, holds⟩
        obtain rfl := Option.some.inj isPath
        exact holds atB
      refine ⟨set, early, full, rfl, isOrder, isEarly, ?_, ?_, stops.sublist (by decide)⟩
      · rw [← isReport]
        exact isFull _ (.refl _)
      · rw [(stops.first 2 "c.json" rfl isFirst).1, atC]
        exact List.mergeSort_singleton _

end Inspection

end TreeLint
