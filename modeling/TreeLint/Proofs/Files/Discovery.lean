import TreeLint.Files.Discovery
import TreeLint.Proofs.Lists

/-!
Contract: when files can be found.

Owns:
- the patterns of excluded paths that can be used below directories;
- the paths for which discovery succeeds.

Does not own: which files are found, and which of several errors is reported.
-/

set_option autoImplicit false

namespace TreeLint

namespace FileSystem

variable {files : FileSystem} {path : String}

theorem pathExists_eq (files : FileSystem) (path : String) :
    files.pathExists path = (files.isFile path || files.isDirectory path) := by
  rw [pathExists, isFile, isDirectory]
  cases files.find? path with
  | none => rfl
  | some tree => cases tree <;> rfl

theorem isFile_of_isDirectory (isDirectory : files.isDirectory path = true) : files.isFile path = false := by
  rw [FileSystem.isDirectory] at isDirectory
  rw [isFile]
  cases found : files.find? path with
  | none => rfl
  | some tree =>
      rw [found] at isDirectory
      exact Bool.not_eq_true' _ |>.mp isDirectory

theorem pathExists_of_text? {text : String} (isText : files.text? path = some text) :
    files.pathExists path = true := by
  rw [text?] at isText
  rw [pathExists]
  cases found : files.find? path with
  | none =>
      rw [found] at isText
      contradiction
  | some tree => rfl

/-- The ignore files in the directories around a path are well formed. -/
def Searchable (files : FileSystem) (path : String) : Prop :=
  ∀ names, files.locate? path = some names → (files.outerLevels names).2 = true

/-- Below a directory files are found exactly if the ignore files around it are well formed. -/
theorem isSome_treeFiles?_iff (isDirectory : files.isDirectory path = true) (excludes : IgnoreFile) :
    (files.treeFiles? excludes path).isSome = true ↔ files.Searchable path := by
  rw [FileSystem.isDirectory, find?] at isDirectory
  rw [treeFiles?, Searchable]
  cases isPlace : files.locate? path with
  | none =>
      rw [isPlace] at isDirectory
      contradiction
  | some names =>
      rw [isPlace] at isDirectory
      change ((files.top.at? names).map FileTree.isDirectory).getD false = true at isDirectory
      cases isTree : files.top.at? names with
      | none =>
          rw [isTree] at isDirectory
          contradiction
      | some directory =>
          simp only [Option.some.injEq, forall_eq']
          change (Option.bind (files.top.at? names) _).isSome = true ↔ _
          rw [isTree]
          simp only [Option.bind_some]
          split
          · rename_i wellFormed
            exact ⟨fun _ => wellFormed, fun _ => rfl⟩
          · rename_i malformed
            exact ⟨nofun, fun wellFormed => absurd wellFormed malformed⟩

end FileSystem

namespace Discovery

variable {files : FileSystem} {patterns : List String}

/-- Whether a pattern of excluded paths is well formed and can be compiled. -/
def acceptsExclude (pattern : String) : Bool :=
  match IgnoreRule.read false ("!" ++ pattern) with
  | .error _ => false
  | .ok rule? => rule?.toList.all fun rule => rule.glob.depth true ≤ Glob.maxDepth

theorem exists_excludeRules_iff :
    (∃ rules, excludeRules patterns = .ok rules ∧
        (rules.all fun rule => rule.glob.depth true ≤ Glob.maxDepth) = true) ↔
      ∀ pattern ∈ patterns, acceptsExclude pattern = true := by
  induction patterns with
  | nil => exact ⟨fun _ _ member => absurd member List.not_mem_nil, fun _ => ⟨[], rfl, rfl⟩⟩
  | cons pattern rest inductionHypothesis =>
      rw [List.forall_mem_cons, ← inductionHypothesis, excludeRules, acceptsExclude]
      cases IgnoreRule.read false ("!" ++ pattern) with
      | error fault => exact ⟨nofun, nofun⟩
      | ok rule? =>
          cases excludeRules rest with
          | error error => exact ⟨nofun, nofun⟩
          | ok rules =>
              constructor
              · rintro ⟨_, isRules, shallow⟩
                obtain rfl := Except.ok.inj isRules
                rw [List.all_append, Bool.and_eq_true] at shallow
                exact ⟨shallow.1, rules, rfl, shallow.2⟩
              · rintro ⟨shallow, _, isRules, shallowRest⟩
                obtain rfl := Except.ok.inj isRules
                refine ⟨rule?.toList ++ rules, rfl, ?_⟩
                rw [List.all_append, Bool.and_eq_true]
                exact ⟨shallow, shallowRest⟩

/-- The patterns of excluded paths can be used below a directory exactly if each of them can. -/
theorem exists_excludesFor_iff (directory : String) :
    (∃ excludes, excludesFor patterns directory = .ok excludes) ↔
      ∀ pattern ∈ patterns, acceptsExclude pattern = true := by
  rw [← exists_excludeRules_iff, excludesFor]
  cases excludeRules patterns with
  | error error => exact ⟨nofun, nofun⟩
  | ok rules =>
      simp only [bind, Except.bind]
      split
      · rename_i shallow
        exact ⟨fun _ => ⟨rules, rfl, shallow⟩, fun _ => ⟨⟨directory, rules⟩, rfl⟩⟩
      · rename_i deep
        refine ⟨nofun, ?_⟩
        rintro ⟨_, isRules, shallow⟩
        obtain rfl := Except.ok.inj isRules
        exact absurd shallow deep

/-- A directory stands for the files that are found below it. -/
theorem filesFor_of_isDirectory {path : String} {excludes : IgnoreFile} {found : List String}
    (isDirectory : files.isDirectory path = true) (isExcludes : excludesFor patterns path = .ok excludes)
    (isFound : files.treeFiles? excludes path = some found) : filesFor files patterns path = .ok found := by
  have notFile : ¬ files.isFile path = true := by simp [FileSystem.isFile_of_isDirectory isDirectory]
  rw [filesFor, if_neg notFile, if_pos isDirectory, isExcludes]
  simp only [bind, Except.bind, isFound]
  rfl

/-- A path stands for files if it denotes a file, or a directory below which they can be searched. -/
theorem exists_filesFor_iff {path : String} :
    (∃ found, filesFor files patterns path = .ok found) ↔
      files.pathExists path = true ∧ (files.isDirectory path = true →
        (∀ pattern ∈ patterns, acceptsExclude pattern = true) ∧ files.Searchable path) := by
  rw [filesFor, FileSystem.pathExists_eq]
  split
  · rename_i isFile
    have noDirectory : files.isDirectory path ≠ true := fun isDirectory => by
      rw [FileSystem.isFile_of_isDirectory isDirectory] at isFile
      contradiction
    exact ⟨fun _ => ⟨by rw [isFile, Bool.true_or], fun isDirectory => absurd isDirectory noDirectory⟩,
      fun _ => ⟨_, rfl⟩⟩
  · split
    · rename_i isDirectory
      simp only [isDirectory, Bool.or_true, true_and, forall_const, ← exists_excludesFor_iff path]
      cases isExcludes : excludesFor patterns path with
      | error error => exact ⟨nofun, fun usable => nomatch usable.1⟩
      | ok excludes =>
          rw [← FileSystem.isSome_treeFiles?_iff isDirectory excludes]
          simp only [bind, Except.bind]
          cases files.treeFiles? excludes path with
          | none => exact ⟨nofun, fun usable => nomatch usable.2⟩
          | some found => exact ⟨fun _ => ⟨⟨excludes, rfl⟩, rfl⟩, fun _ => ⟨found, rfl⟩⟩
    · rename_i noFile noDirectory
      rw [Bool.not_eq_true] at noFile noDirectory
      rw [noFile, noDirectory]
      exact ⟨nofun, nofun⟩

/-- Files are found exactly if each path stands for some. -/
theorem exists_discover_iff {paths : List String} :
    (∃ found, discover files patterns paths = .ok found) ↔
      ∀ path ∈ paths, ∃ found, filesFor files patterns path = .ok found := by
  rw [← exists_mapM_iff, discover]
  cases paths.mapM (filesFor files patterns) with
  | error error => exact ⟨nofun, nofun⟩
  | ok found => exact ⟨fun _ => ⟨found, rfl⟩, fun _ => ⟨_, rfl⟩⟩

end Discovery

end TreeLint
