import TreeLint.Files.Basic
import TreeLint.Report.Format
import TreeLint.Rule.Check

/-!
Contract: the inspection of files.

Owns: what is found in a file, where a file that cannot be read is an offense too; and what is found in several
files, one after another. An inspection may stop after the first file in which something is found.
-/

set_option autoImplicit false

namespace TreeLint

namespace Inspection

def cannotRead : String := "failed to read file"

def unreadable (reason : String) : String := cannotRead ++ ": " ++ reason

def unreadableRecord (path reason : String) : LogRecord :=
  ⟨.warn, .linter, cannotRead, [("path", .plain path), ("error", .plain reason)]⟩

/-- What is found in one file, in the order of events. -/
def inspectFile (set : RuleSet) (engine : RegexEngine) (globs : GlobEngine) (formats : Formats)
    (files : FileSystem) (path : String) : Attempt MatchFault (List Diagnostic) :=
  match files.text? path with
  | some text => set.checkText engine globs formats path text
  | none => do
      let reason := files.complaint path
      .log (unreadableRecord path reason)
      return [RuleSet.loadDiagnostic path (unreadable reason)]

/-- What is found in several files, one after another. If `failFast` is set, the files after the first one in
which something is found are left out. -/
def inspectAll (failFast : Bool) (inspect : String → Attempt MatchFault (List Diagnostic)) :
    List String → Attempt MatchFault (List Diagnostic)
  | [] => pure []
  | path :: rest => do
      let found ← inspect path
      if failFast && !found.isEmpty then return found
      else return found ++ (← inspectAll failFast inspect rest)

def finishedRecord (count : Nat) : LogRecord :=
  ⟨.debug, .linter, "linter phase breakdown (per-phase times are summed across threads)",
    [("files", .number count), ("file_io", .duration), ("tree_build", .duration),
      ("dispatch", .duration), ("wall_clock", .duration)]⟩

def report (set : RuleSet) (engine : RegexEngine) (globs : GlobEngine) (formats : Formats)
    (files : FileSystem) (failFast : Bool) (paths : List String) : Attempt MatchFault Report := do
  let found ← inspectAll failFast (inspectFile set engine globs formats files) paths
  .log (finishedRecord paths.length)
  return ⟨Diagnostic.sorted found, paths.length⟩

end Inspection

end TreeLint
