import TreeLint.Program.Inspection

/-!
Contract: the inspection of a list of files in any order.

Owns: what is known between two files, the look at one file, and the report on a list of files of which one is
looked at after another in a given order. A look at a file in which something is found may stop the inspection:
the files that come later in the order are then left out. Whatever the order, what is found is put together in
the order of the list.
-/

set_option autoImplicit false

namespace TreeLint

namespace Inspection

/-- What is known between two files. -/
structure Progress where
  /-- Whether the files still to come are left out. -/
  stopped : Bool
  /-- What was found in each file of the list so far. -/
  found : List (List Diagnostic)
  deriving DecidableEq, Repr

def Progress.start (count : Nat) : Progress := ⟨false, List.replicate count []⟩

def Progress.note (failFast : Bool) (number : Nat) (found : List Diagnostic) (progress : Progress) : Progress :=
  ⟨progress.stopped || (failFast && !found.isEmpty), progress.found.set number found⟩

def look (failFast : Bool) (inspect : String → Attempt MatchFault (List Diagnostic)) (paths : List String)
    (progress : Progress) (number : Nat) : Attempt MatchFault Progress :=
  match paths[number]? with
  | none => pure progress
  | some path =>
      if failFast && progress.stopped then pure progress
      else do
        let found ← inspect path
        return progress.note failFast number found

/-- What is found in the files of a list that are looked at in an order of their numbers. -/
def inspectInOrder (failFast : Bool) (inspect : String → Attempt MatchFault (List Diagnostic))
    (paths : List String) (order : List Nat) : Attempt MatchFault (List Diagnostic) := do
  let progress ← order.foldlM (look failFast inspect paths) (.start paths.length)
  return progress.found.flatten

/-- The report on the files of a list that are looked at in an order of their numbers. -/
def reportInOrder (set : RuleSet) (engine : RegexEngine) (globs : GlobEngine) (formats : Formats)
    (files : FileSystem) (failFast : Bool) (paths : List String) (order : List Nat) :
    Attempt MatchFault Report := do
  let found ← inspectInOrder failFast (inspectFile set engine globs formats files) paths order
  .log (finishedRecord paths.length)
  return ⟨Diagnostic.sorted found, paths.length⟩

end Inspection

end TreeLint
