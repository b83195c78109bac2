import TreeLint.Proofs.Text.Lines
import TreeLint.Report.Format

/-!
Contract: the lines of a plain report.

Owns:
- `Report.HasLineEach`, by which the written report has one line for each diagnostic and no others but the empty
  line and the summary;
- the diagnostics that are written on one line, and the reports that have one line for each.

Does not own: which diagnostics a rule set reports.
-/

set_option autoImplicit false

namespace TreeLint

open Text

/-- The fields of a diagnostic are written as they are, so it is on one line exactly if none of them breaks it and
the last, which is the message, does not end in a carriage return. -/
theorem Diagnostic.isLine_text_iff (diagnostic : Diagnostic) :
    IsLine diagnostic.text ↔
      Unbroken diagnostic.path ∧ Unbroken diagnostic.ruleName ∧ IsLine diagnostic.message := by
  have letter : Unbroken (String.singleton diagnostic.severity.letter) := by
    cases diagnostic.severity <;> decide
  have punctuation : Unbroken ":" ∧ Unbroken ": " := by decide
  have ends : ∀ before : String, (before ++ ": ").toList.getLast? ≠ some '\r' := by
    intro before
    rw [String.toList_append, List.getLast?_append_of_ne_nil _ (by decide)]
    decide
  rw [text, isLine_append (ends _)]
  simp only [unbroken_append, unbroken_toString, letter, punctuation, and_true, and_assoc]

namespace Report

theorem unbroken_counted (n : Nat) {thing : String} (unbroken : Unbroken thing) :
    Unbroken (counted n thing) := by
  have plural : Unbroken (thing ++ "s") := unbroken_append.mpr ⟨unbroken, by decide⟩
  rw [counted, unbroken_append, unbroken_append]
  refine ⟨⟨unbroken_toString n, by decide⟩, ?_⟩
  split
  · exact unbroken
  · exact plural

theorem isLine_summary (report : Report) : IsLine report.summary := by
  have counts : Unbroken (counted report.fileCount "file" ++ " inspected, "
      ++ counted report.diagnostics.length "offense") := by
    rw [unbroken_append, unbroken_append]
    exact ⟨⟨unbroken_counted _ (by decide), by decide⟩, unbroken_counted _ (by decide)⟩
  refine ⟨unbroken_append.mpr ⟨counts, by decide⟩, ?_⟩
  rw [summary, String.toList_append, List.getLast?_append_of_ne_nil _ (by decide)]
  decide

/-- The written report has the lines of its diagnostics, then an empty one and the summary. -/
theorem lines_render (report : Report) :
    Text.lines (report.render .text)
      = (report.diagnostics.flatMap fun diagnostic => Text.lines (diagnostic.text ++ "\n"))
        ++ ["", report.summary] := by
  have ending : Text.lines (report.summary ++ "\n") = [report.summary] :=
    lines_eq_singleton_iff.mpr report.isLine_summary
  have empty : Text.lines ("" ++ "\n") = [""] := lines_eq_singleton_iff.mpr (by decide)
  rw [render, lines, lines_join, List.flatMap_append, List.flatMap_map, List.flatMap_cons, List.flatMap_cons,
    List.flatMap_nil, List.append_nil, empty, ending]
  rfl

/-- The written report has one line for each diagnostic, then an empty one and the summary. -/
def HasLineEach (report : Report) : Prop :=
  Text.lines (report.render .text) = report.diagnostics.map Diagnostic.text ++ ["", report.summary]

theorem hasLineEach_iff (report : Report) :
    report.HasLineEach ↔ ∀ diagnostic ∈ report.diagnostics, IsLine diagnostic.text := by
  have ending : ∀ line ∈ ["", report.summary], IsLine line :=
    List.forall_mem_cons.mpr ⟨by decide, List.forall_mem_singleton.mpr report.isLine_summary⟩
  rw [HasLineEach, render, lines, lines_join_eq_iff, List.forall_mem_append, List.forall_mem_map,
    and_iff_left ending]

end Report

end TreeLint
