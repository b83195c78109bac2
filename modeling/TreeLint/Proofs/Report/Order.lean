import Mathlib.Data.Prod.Lex
import Mathlib.Data.String.Basic
import TreeLint.Proofs.Lists
import TreeLint.Report.Diagnostic

/-!
Contract: the order of a report.

Owns:
- `Diagnostic.key`, by which the order of diagnostics is that of paths, lines and columns;
- `Diagnostic.Arranged`, a list in the order of places whose ties keep the order of another list;
- the sorted diagnostics of several files, which are those of one file after those of another.
-/

set_option autoImplicit false

namespace TreeLint

/-! ### Diagnostics -/

namespace Diagnostic

def key (diagnostic : Diagnostic) : String ×ₗ Nat ×ₗ Nat :=
  toLex (diagnostic.path, toLex (diagnostic.location.line, diagnostic.location.column))

theorem precedes_iff_key {first second : Diagnostic} :
    first.precedes second = true ↔ first.key ≤ second.key := by
  rw [key, key, Prod.Lex.toLex_le_toLex, Prod.Lex.toLex_le_toLex, precedes, compareOfLessAndEq]
  by_cases before : first.path < second.path
  · simp [before]
  · by_cases same : first.path = second.path
    · simp [same]
    · simp [before, same]

theorem precedes_trans (first second third : Diagnostic) (before : first.precedes second = true)
    (after : second.precedes third = true) : first.precedes third = true :=
  precedes_iff_key.mpr ((precedes_iff_key.mp before).trans (precedes_iff_key.mp after))

theorem precedes_total (first second : Diagnostic) :
    (first.precedes second || second.precedes first) = true := by
  rw [Bool.or_eq_true, precedes_iff_key, precedes_iff_key]
  exact le_total first.key second.key

/-- Ties have the same path and the same place. -/
theorem tied_iff {first second : Diagnostic} :
    tied precedes first second = true ↔ first.path = second.path ∧ first.location = second.location := by
  obtain ⟨_, ⟨line, column⟩, _, _, _⟩ := first
  obtain ⟨_, ⟨line', column'⟩, _, _, _⟩ := second
  rw [tied, Bool.and_eq_true, precedes_iff_key, precedes_iff_key, ← le_antisymm_iff, key, key]
  simp

/-- The list is in the order of places, and what is at one place keeps the order of `emitted`. -/
structure Arranged (emitted arranged : List Diagnostic) : Prop where
  perm : arranged.Perm emitted
  ordered : arranged.Pairwise fun first second => first.location.line < second.location.line ∨
    first.location.line = second.location.line ∧ first.location.column ≤ second.location.column
  ties : ∀ location, arranged.filter (·.location == location) = emitted.filter (·.location == location)

theorem pairwise_sorted (diagnostics : List Diagnostic) :
    (sorted diagnostics).Pairwise (precedes · · = true) :=
  List.pairwise_mergeSort precedes_trans precedes_total diagnostics

theorem mem_sorted_iff {diagnostics : List Diagnostic} {diagnostic : Diagnostic} :
    diagnostic ∈ sorted diagnostics ↔ diagnostic ∈ diagnostics :=
  (List.mergeSort_perm diagnostics precedes).mem_iff

variable {path : String} {emitted : List Diagnostic}

/-- Sorting what was found in files with different paths gives what is sorted for each of them, in the order of
the paths. The order in which the files were looked at does not matter. -/
theorem sorted_flatMap {paths order : List String} (distinct : paths.Nodup) (permutation : order.Perm paths)
    {emitted : String → List Diagnostic}
    (ofPath : ∀ path, ∀ diagnostic ∈ emitted path, diagnostic.path = path) :
    sorted (order.flatMap emitted)
      = (paths.mergeSort (· ≤ ·)).flatMap fun path => sorted (emitted path) := by
  have ascending : (paths.mergeSort (· ≤ ·)).Pairwise (· < ·) := by
    have trans : ∀ first second third : String, decide (first ≤ second) = true →
        decide (second ≤ third) = true → decide (first ≤ third) = true := by
      intro first second third before after
      exact decide_eq_true ((of_decide_eq_true before).trans (of_decide_eq_true after))
    have total : ∀ first second : String, (decide (first ≤ second) || decide (second ≤ first)) = true := by
      intro first second
      simpa using le_total first second
    have ordered := List.pairwise_mergeSort trans total paths
    have noRepeats := (List.mergeSort_perm paths (· ≤ ·)).nodup_iff.mpr distinct
    exact (ordered.and noRepeats).imp fun both => lt_of_le_of_ne (of_decide_eq_true both.1) both.2
  refine eq_of_filter_tied precedes_total (pairwise_sorted _) ?_ fun item => ?_
  · refine List.pairwise_flatMap.mpr ⟨fun path _ => pairwise_sorted _, ?_⟩
    refine ascending.imp fun before first isFirst second isSecond => ?_
    rw [precedes_iff_key, key, key, Prod.Lex.toLex_le_toLex, ofPath _ first (mem_sorted_iff.mp isFirst),
      ofPath _ second (mem_sorted_iff.mp isSecond)]
    exact .inl before
  · rw [sorted, filter_tied_mergeSort precedes_trans precedes_total, List.filter_flatMap, List.filter_flatMap]
    have blocks : ∀ path, (sorted (emitted path)).filter (tied precedes item)
        = (emitted path).filter (tied precedes item) :=
      fun path => filter_tied_mergeSort precedes_trans precedes_total _ item
    simp only [blocks]
    refine flatMap_eq_of_perm (permutation.trans (List.mergeSort_perm paths _).symm) item.path ?_
    intro path isOther
    rw [List.filter_eq_nil_iff]
    intro diagnostic member isTied
    exact isOther ((ofPath path diagnostic member).symm.trans (tied_iff.mp isTied).1.symm)

end Diagnostic

end TreeLint
