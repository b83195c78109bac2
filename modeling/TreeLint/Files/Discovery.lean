import TreeLint.Error.Cause
import TreeLint.Files.Walk
import TreeLint.Log.Record

/-!
Contract: which files are inspected.

Owns: discovery. A file that is named is inspected whatever its name; a directory stands for the tree files
below it. The result is in the order of paths, and of paths with the same components only the first is kept.
-/

set_option autoImplicit false

namespace TreeLint

inductive DiscoveryError where
  | missing (path : String)
  /-- A pattern of excluded paths is malformed. -/
  | badExclude (pattern : String) (fault : GlobFault)
  /-- The patterns of excluded paths cannot be compiled together. -/
  | unusableExcludes
  /-- An ignore file around a searched directory is malformed. -/
  | walk (reason : String)
  deriving DecidableEq, Repr

namespace DiscoveryError

def message : DiscoveryError → String
  | .missing path => "path does not exist: " ++ path
  | .badExclude pattern _ => "invalid exclude pattern: " ++ pattern
  | .unusableExcludes => "failed to build overrides"
  | .walk _ => "error walking directory"

def chain (error : DiscoveryError) : List Cause :=
  ⟨.context, error.message⟩ ::
    match error with
    | .missing _ => []
    | .badExclude _ fault => [⟨.search, fault.message⟩]
    | .unusableExcludes => [⟨.search, Glob.tooDeep⟩]
    | .walk reason => [⟨.search, reason⟩]

end DiscoveryError

namespace Discovery

/-- The rules for excluded paths, up to the first that is malformed. -/
def excludeRules : List String → Except DiscoveryError (List IgnoreRule)
  | [] => .ok []
  | pattern :: rest => do
      match IgnoreRule.read false ("!" ++ pattern) with
      | .error fault => throw (.badExclude pattern fault)
      | .ok rule? => return rule?.toList ++ (← excludeRules rest)

/-- The rules for excluded paths below a directory. -/
def excludesFor (patterns : List String) (directory : String) : Except DiscoveryError IgnoreFile := do
  let rules ← excludeRules patterns
  if rules.all fun rule => rule.glob.depth true ≤ Glob.maxDepth then return ⟨directory, rules⟩
  else throw .unusableExcludes

def filesFor (files : FileSystem) (patterns : List String) (path : String) :
    Except DiscoveryError (List String) := do
  if files.isFile path then return [path]
  else if files.isDirectory path then
    let excludes ← excludesFor patterns path
    match files.treeFiles? excludes path with
    | some found => return found
    | none => throw (.walk (files.complaint path))
  else throw (.missing path)

def precedes (left right : String) : Bool :=
  (Path.ofString left).compare (Path.ofString right) != .gt

def samePath (left right : String) : Bool :=
  (Path.ofString left).components == (Path.ofString right).components

/-- The list without the paths that repeat the one before. -/
def dropRepeats : List String → List String
  | [] => []
  | [path] => [path]
  | first :: second :: rest =>
      if samePath first second then dropRepeats (first :: rest)
      else first :: dropRepeats (second :: rest)
termination_by paths => paths.length

def discover (files : FileSystem) (patterns : List String) (paths : List String) :
    Except DiscoveryError (List String) := do
  let found ← paths.mapM (filesFor files patterns)
  return dropRepeats (found.flatten.mergeSort precedes)

def record (found : List String) : LogRecord :=
  ⟨.debug, .files, "discovered files", [("count", .number found.length)]⟩

end Discovery

end TreeLint
