import Mathlib.Data.List.Pairwise
import TreeLint.Proofs.Files.Discovery
import TreeLint.Proofs.Path.Order

/-!
Contract: the list of discovered files.

Owns:
- the removal of repeats from a sorted list, which leaves one path for each list of components;
- the files that paths stand for, each of which begins like the path that it was reached by;
- the list of discovered files, which is sorted and has each of them once but for a `.` at the beginning: a file
  is listed twice exactly if it is reached both with and without that.

Does not own: which files a directory stands for.
-/

set_option autoImplicit false

namespace TreeLint

namespace Discovery

variable {files : FileSystem} {patterns paths : List String} {path file : String}

/-! ### Removal of repeats -/

def Ordered (paths : List String) : Prop :=
  paths.Pairwise fun first second => (Path.ofString first).key ≤ (Path.ofString second).key

theorem precedes_iff {first second : String} :
    precedes first second = true ↔ (Path.ofString first).key ≤ (Path.ofString second).key := by
  rw [precedes, bne_iff_ne, Path.compare_ne_gt_iff]

theorem ordered_mergeSort (paths : List String) : Ordered (paths.mergeSort precedes) := by
  refine (List.pairwise_mergeSort ?_ ?_ paths).imp precedes_iff.mp
  · intro first second third before after
    exact precedes_iff.mpr ((precedes_iff.mp before).trans (precedes_iff.mp after))
  · intro first second
    rw [Bool.or_eq_true, precedes_iff, precedes_iff]
    exact le_total _ _

theorem samePath_iff {first second : String} :
    samePath first second = true ↔ (Path.ofString first).key = (Path.ofString second).key := by
  rw [samePath, beq_iff_eq, Path.key_eq_iff]

theorem dropRepeats_sublist (paths : List String) : (dropRepeats paths).Sublist paths := by
  fun_induction dropRepeats paths with
  | case1 => exact .refl _
  | case2 path => exact .refl _
  | case3 first second rest same inductionHypothesis =>
      exact inductionHypothesis.trans (.cons_cons first (.cons second (.refl rest)))
  | case4 first second rest differs inductionHypothesis => exact inductionHypothesis.cons_cons first

/-- Every path is kept in one of its spellings. -/
theorem exists_kept (paths : List String) :
    ∀ path ∈ paths, ∃ kept ∈ dropRepeats paths, samePath kept path = true := by
  fun_induction dropRepeats paths with
  | case1 => exact List.forall_mem_nil _
  | case2 only =>
      intro path member
      obtain rfl := List.mem_singleton.mp member
      exact ⟨path, List.mem_singleton_self path, samePath_iff.mpr rfl⟩
  | case3 first second rest same inductionHypothesis =>
      rw [List.forall_mem_cons] at inductionHypothesis
      obtain ⟨kept, isKept, sameFirst⟩ := inductionHypothesis.1
      have sameSecond : samePath kept second = true :=
        samePath_iff.mpr ((samePath_iff.mp sameFirst).trans (samePath_iff.mp same))
      exact List.forall_mem_cons.mpr ⟨⟨kept, isKept, sameFirst⟩,
        List.forall_mem_cons.mpr ⟨⟨kept, isKept, sameSecond⟩, inductionHypothesis.2⟩⟩
  | case4 first second rest differs inductionHypothesis =>
      refine List.forall_mem_cons.mpr ⟨⟨first, List.mem_cons_self, samePath_iff.mpr rfl⟩, ?_⟩
      intro path member
      obtain ⟨kept, isKept, samePath⟩ := inductionHypothesis path member
      exact ⟨kept, List.mem_cons_of_mem _ isKept, samePath⟩

/-- In a list in order, what is kept is in strict order. -/
theorem pairwise_dropRepeats (ordered : Ordered paths) :
    (dropRepeats paths).Pairwise fun first second => (Path.ofString first).key < (Path.ofString second).key := by
  fun_induction dropRepeats paths with
  | case1 => exact .nil
  | case2 path => exact List.pairwise_singleton _ path
  | case3 first second rest same inductionHypothesis =>
      exact inductionHypothesis (List.Pairwise.sublist (.cons_cons first (.cons second (.refl rest))) ordered)
  | case4 first second rest differs inductionHypothesis =>
      obtain ⟨before, further⟩ := List.pairwise_cons.mp ordered
      refine List.pairwise_cons.mpr ⟨fun other isKept => ?_, inductionHypothesis further⟩
      have notSame : (Path.ofString first).key ≠ (Path.ofString second).key := mt samePath_iff.mpr differs
      have firstBefore := lt_of_le_of_ne (before second List.mem_cons_self) notSame
      rcases List.mem_cons.mp ((dropRepeats_sublist _).subset isKept) with rfl | later
      · exact firstBefore
      · exact firstBefore.trans_le ((List.pairwise_cons.mp further).1 other later)

/-! ### Reached files -/

/-- The file is one of those that a path of the list stands for. -/
def Reaches (files : FileSystem) (patterns paths : List String) (file : String) : Prop :=
  ∃ path ∈ paths, ∃ found, filesFor files patterns path = .ok found ∧ file ∈ found

/-- What is found below a directory begins like the directory. -/
theorem start_of_mem_walk {excludes : IgnoreFile} {levels : List IgnoreLevel} {absolute : String}
    {entries : List (String × FileTree)} (nonempty : path ≠ "")
    (member : file ∈ FileTree.walk excludes levels path absolute entries) :
    (Path.ofString file).start = (Path.ofString path).start := by
  fun_induction FileTree.walk excludes levels path absolute entries with
  | case1 => contradiction
  | case2 levels path absolute name bytes rest own found inductionHypothesis =>
      rcases List.mem_append.mp member with here | later
      · have isOwn : file = own := by
          simp only [found] at here
          split at here
          · contradiction
          · split at here
            · exact List.mem_singleton.mp here
            · contradiction
        rw [isOwn]
        exact Path.start_below nonempty name
      · exact inductionHypothesis nonempty later
  | case3 levels path absolute name entries rest own ownAbsolute found inner inductionHypothesis =>
      rcases List.mem_append.mp member with here | later
      · simp only [found] at here
        split at here
        · contradiction
        · rw [inner (Path.below_ne_empty nonempty name) here]
          exact Path.start_below nonempty name
      · exact inductionHypothesis nonempty later

theorem exists_walk_of_treeFiles? {excludes : IgnoreFile} {found : List String}
    (isFound : files.treeFiles? excludes path = some found) :
    ∃ levels absolute entries, found = FileTree.walk excludes levels path absolute entries := by
  rw [FileSystem.treeFiles?] at isFound
  obtain ⟨names, _, located⟩ := Option.bind_eq_some_iff.mp isFound
  obtain ⟨directory, _, searched⟩ := Option.bind_eq_some_iff.mp located
  simp only [Option.ite_none_right_eq_some] at searched
  exact ⟨_, _, _, (Option.some.inj searched.2).symm⟩

/-- A file begins like the path that it is reached by. -/
theorem start_of_mem_filesFor {found : List String} (isFound : filesFor files patterns path = .ok found)
    (member : file ∈ found) : (Path.ofString file).start = (Path.ofString path).start := by
  rw [filesFor] at isFound
  split at isFound
  · obtain rfl := Except.ok.inj isFound
    rw [List.mem_singleton.mp member]
  · split at isFound
    · rename_i isDirectory
      have nonempty : path ≠ "" := by
        rintro rfl
        exact absurd isDirectory (by simp [FileSystem.isDirectory, FileSystem.find?, FileSystem.locate?])
      cases isExcludes : excludesFor patterns path with
      | error error =>
          rw [isExcludes] at isFound
          contradiction
      | ok excludes =>
          rw [isExcludes] at isFound
          cases isSearched : files.treeFiles? excludes path with
          | none =>
              simp only [bind, Except.bind, isSearched] at isFound
              contradiction
          | some searched =>
              simp only [bind, Except.bind, isSearched] at isFound
              obtain rfl := Except.ok.inj isFound
              obtain ⟨levels, absolute, entries, rfl⟩ := exists_walk_of_treeFiles? isSearched
              exact start_of_mem_walk nonempty member
    · contradiction

/-! ### The list of files -/

/-- The two paths agree when `.` and repeated separators are dropped. -/
def SameFile (first second : String) : Prop :=
  (Path.ofString first).undotted = (Path.ofString second).undotted

/-- The files are reached by paths of which some begin with `.` and others with a name. -/
def Mixed (paths : List String) : Prop :=
  (∃ path ∈ paths, (Path.ofString path).start = .current) ∧ ∃ path ∈ paths, (Path.ofString path).start = .plain

/-- How a list of files relates to those that are reached. -/
structure Lists (reached : String → Prop) (listed : List String) : Prop where
  ordered : listed.Pairwise fun first second =>
    (Path.ofString first).compare (Path.ofString second) = .lt
  sound : ∀ file ∈ listed, reached file
  complete : ∀ file, reached file → ∃ entry ∈ listed, samePath entry file = true

theorem lists_of_discover {listed : List String} (discovered : discover files patterns paths = .ok listed) :
    Lists (Reaches files patterns paths) listed := by
  rw [discover] at discovered
  cases mapped : paths.mapM (filesFor files patterns) with
  | error error =>
      rw [mapped] at discovered
      contradiction
  | ok found =>
      rw [mapped] at discovered
      obtain rfl := Except.ok.inj discovered
      have isReached : ∀ file, file ∈ found.flatten.mergeSort precedes ↔ Reaches files patterns paths file :=
        fun file => (List.mergeSort_perm _ _).mem_iff.trans (mem_flatten_of_mapM mapped)
      refine ⟨?_, fun file member => ?_, fun file reached => ?_⟩
      · exact (pairwise_dropRepeats (ordered_mergeSort _)).imp Path.compare_eq_lt_iff.mpr
      · exact (isReached file).mp ((dropRepeats_sublist _).subset member)
      · exact exists_kept _ file ((isReached file).mpr reached)

/-- A file is reached both with and without a `.` at the beginning. -/
def ReachedTwice (reached : String → Prop) : Prop :=
  ∃ dotted plain, reached dotted ∧ reached plain ∧
    (Path.ofString dotted).components = .current :: (Path.ofString plain).components

/-- No file is listed twice exactly if none is reached in two ways. -/
theorem Lists.once_iff {reached : String → Prop} {listed : List String} (lists : Lists reached listed) :
    (listed.Pairwise fun first second => ¬ SameFile first second) ↔ ¬ ReachedTwice reached := by
  constructor
  · rintro once ⟨dotted, plain, dottedReached, plainReached, more⟩
    obtain ⟨first, firstListed, firstSame⟩ := lists.complete dotted dottedReached
    obtain ⟨second, secondListed, secondSame⟩ := lists.complete plain plainReached
    rw [samePath, beq_iff_eq] at firstSame secondSame
    rw [← firstSame, ← secondSame] at more
    have differ : first ≠ second := by
      rintro rfl
      exact List.cons_ne_self _ _ more.symm
    have symmetric : Std.Symm fun first second : String => ¬ SameFile first second :=
      ⟨fun _ _ differs same => differs same.symm⟩
    exact once.forall firstListed secondListed differ (Path.undotted_eq_iff.mpr (.inr (.inl more)))
  · intro notTwice
    refine lists.ordered.imp_of_mem fun {first second} firstListed secondListed before same => notTwice ?_
    have firstReached := lists.sound first firstListed
    have secondReached := lists.sound second secondListed
    rcases Path.undotted_eq_iff.mp same with alike | more | more
    · rw [Path.compare_eq_lt_iff, Path.key_eq_iff.mpr alike] at before
      exact absurd before (lt_irrefl _)
    · exact ⟨first, second, firstReached, secondReached, more⟩
    · exact ⟨second, first, secondReached, firstReached, more⟩

/-- Files that are reached in two ways are reached by paths of which some begin with `.` and others with a
name. -/
theorem mixed_of_reachedTwice (twice : ReachedTwice (Reaches files patterns paths)) : Mixed paths := by
  obtain ⟨dotted, plain, ⟨path, isPath, _, isFound, member⟩, ⟨other, isOther, _, isFound', member'⟩, more⟩ :=
    twice
  obtain ⟨dottedStart, plainStart⟩ := Path.starts_of_components_eq more
  rw [start_of_mem_filesFor isFound member] at dottedStart
  rw [start_of_mem_filesFor isFound' member'] at plainStart
  exact ⟨⟨path, isPath, dottedStart⟩, other, isOther, plainStart⟩

/-- For existing paths of which the directories can be searched, the discovered files are listed in the order of
paths, and of the spellings with the same components exactly one. A file is listed twice exactly if it is reached
both with and without a `.` at the beginning, and never if all relative paths begin alike. -/
theorem discover_once_iff
    (usable : ∀ path ∈ paths, files.pathExists path = true ∧ (files.isDirectory path = true →
      (∀ pattern ∈ patterns, acceptsExclude pattern = true) ∧ files.Searchable path)) :
    ∃ listed, discover files patterns paths = .ok listed ∧
      Lists (Reaches files patterns paths) listed ∧
      ((listed.Pairwise fun first second => ¬ SameFile first second) ↔
        ¬ ReachedTwice (Reaches files patterns paths)) ∧
      (¬ Mixed paths → listed.Pairwise fun first second => ¬ SameFile first second) := by
  have each : ∀ path ∈ paths, ∃ found, filesFor files patterns path = .ok found :=
    fun path member => exists_filesFor_iff.mpr (usable path member)
  obtain ⟨listed, discovered⟩ := exists_discover_iff.mpr each
  have lists := lists_of_discover discovered
  exact ⟨listed, discovered, lists, lists.once_iff,
    fun alike => lists.once_iff.mpr (mt mixed_of_reachedTwice alike)⟩

def oneFile : FileSystem := ⟨.directory [("a.json", .file [123, 125])], [], fun _ => ""⟩

theorem treeFiles?_oneFile : oneFile.treeFiles? ⟨".", []⟩ "." = some ["./a.json"] := by
  have located : oneFile.locate? "." = some [] := by decide +kernel
  simp only [FileSystem.treeFiles?, located]
  change some (FileTree.walk _ _ _ _ [("a.json", .file [123, 125])]) = _
  rw [FileTree.walk, FileTree.walk]
  decide +kernel

/-- The file is reached by the directory and by its name, and is listed twice. -/
theorem discover_once_iff_dotted :
    ∃ listed, discover oneFile [] [".", "a.json"] = .ok listed ∧ listed = ["./a.json", "a.json"] ∧
      ¬ listed.Pairwise fun first second => ¬ SameFile first second := by
  have isDirectory : oneFile.isDirectory "." = true := by decide +kernel
  have byDirectory : filesFor oneFile [] "." = .ok ["./a.json"] :=
    filesFor_of_isDirectory isDirectory rfl treeFiles?_oneFile
  have byName : filesFor oneFile [] "a.json" = .ok ["a.json"] := by decide +kernel
  have usable : ∀ path ∈ [".", "a.json"], oneFile.pathExists path = true ∧
      (oneFile.isDirectory path = true →
        (∀ pattern ∈ [], acceptsExclude pattern = true) ∧ oneFile.Searchable path) := by
    have each : ∀ path ∈ [".", "a.json"], ∃ found, filesFor oneFile [] path = .ok found :=
      List.forall_mem_cons.mpr ⟨⟨_, byDirectory⟩, List.forall_mem_singleton.mpr ⟨_, byName⟩⟩
    exact fun path member => exists_filesFor_iff.mp (each path member)
  obtain ⟨listed, discovered, _, once_iff, _⟩ := discover_once_iff usable
  have isListed : discover oneFile [] [".", "a.json"] = .ok ["./a.json", "a.json"] := by
    have sorted : ["./a.json", "a.json"].Pairwise fun first second => precedes first second = true := by
      decide +kernel
    have distinct : dropRepeats ["./a.json", "a.json"] = ["./a.json", "a.json"] := by decide +kernel
    simp only [discover, List.mapM_cons, List.mapM_nil, byDirectory, byName, bind, Except.bind, pure,
      Except.pure, List.flatten_cons, List.flatten_nil, List.singleton_append, List.append_nil]
    rw [List.mergeSort_of_pairwise sorted, distinct]
  refine ⟨listed, discovered, Except.ok.inj (discovered.symm.trans isListed), fun once => once_iff.mp once ?_⟩
  exact ⟨"./a.json", "a.json", ⟨".", by decide, _, byDirectory, List.mem_singleton_self _⟩,
    ⟨"a.json", by decide, _, byName, List.mem_singleton_self _⟩, by decide +kernel⟩

end Discovery

end TreeLint
