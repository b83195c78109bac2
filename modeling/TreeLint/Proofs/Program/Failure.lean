import TreeLint.Program.Run
import TreeLint.Proofs.Files.Discovery
import TreeLint.Proofs.Program.Inspection
import TreeLint.Proofs.Rule.Construction

/-!
Contract: when runs fail, and with which number.

Owns:
- the faults of the input: a configuration that is refused, path patterns of a wanted rule that cannot be used,
  and selectors that do not parse;
- the other failures: a configuration that is no text, and the failures of discovery, to which the patterns of
  excluded paths of the configuration belong;
- the status of each failed run, found by a search of its causes;
- the numbers of failed runs, which tell these two kinds apart.

Does not own: the words of errors, and which of several faults is reported.
-/

set_option autoImplicit false

namespace TreeLint

/-! ### The status of failed runs -/

/-- The causes of an error tell that the fault lies with the input exactly if a configuration was read and refused, or
if rules could not be made. -/
theorem RunError.status_eq (error : RunError) :
    error.status =
      match error with
      | .config (.refused _ _) | .rules _ => .invalidInput
      | _ => .failure := by
  cases error with
  | config cause =>
      cases cause with
      | unreadable path reason => rfl
      | refused path cause => cases cause <;> rfl
  | rules cause => rfl
  | discovery cause => cases cause <;> rfl
  | matching fault => rfl

namespace Run

variable {engine : RegexEngine} {globs : GlobEngine} {formats : Formats} {files : FileSystem}
  {options : Options} {config : Config}

/-! ### Why runs fail -/

def FailsWith (engine : RegexEngine) (globs : GlobEngine) (formats : Formats) (files : FileSystem)
    (options : Options) (code : Nat) : Prop :=
  ∃ error, (perform engine globs formats files options).result = .error error ∧ error.status.code = code

def configPath (files : FileSystem) (options : Options) : String :=
  Config.filePath files options.config (targetDirectory files options.targets)

def Loads (formats : Formats) (files : FileSystem) (options : Options) (config : Config) : Prop :=
  (Config.load formats files options.config (targetDirectory files options.targets)).result = .ok config

/-- The configuration is refused, or the path patterns of a wanted rule or a selector are. -/
inductive InvalidInput (engine : RegexEngine) (globs : GlobEngine) (formats : Formats) (files : FileSystem)
    (options : Options) : Prop where
  /-- The text of the configuration denotes none. -/
  | config {text : String} {cause : ConfigError} (isText : files.text? (configPath files options) = some text)
      (refused : (Config.read formats text).result = .error cause)
  /-- The path patterns of a wanted rule cannot be used. -/
  | exclude {config : Config} {entry : String × RuleConfig} (loads : Loads formats files options config)
      (isWanted : entry ∈ options.filter.wanted config.rules) (refused : ¬globs.Usable entry.2.excludes)
  /-- A selector of a rule that is asked for does not parse. -/
  | selector {config : Config} {rule : Rule} {pattern : String} (loads : Loads formats files options config)
      (isAsked : rule ∈ RuleSet.asked config options.selectors options.filter)
      (isSelector : pattern ∈ rule.selectors) (refused : Pattern.selector? engine pattern = none)

/-- The run comes to searching for files. -/
structure Searches (engine : RegexEngine) (globs : GlobEngine) (formats : Formats) (files : FileSystem)
    (options : Options) (config : Config) : Prop where
  loads : Loads formats files options config
  isValid : ¬InvalidInput engine globs formats files options
  notListing : options.listRules = false
  notExplaining : options.explain = false

/-- Something else stops the run. -/
inductive OtherFailure (engine : RegexEngine) (globs : GlobEngine) (formats : Formats) (files : FileSystem)
    (options : Options) : Prop where
  /-- There is a configuration, but it is no text. -/
  | unreadable (isThere : files.pathExists (configPath files options) = true)
      (noText : files.text? (configPath files options) = none)
  /-- A path to inspect does not exist. -/
  | missing {config : Config} {target : String}
      (searches : Searches engine globs formats files options config) (isTarget : target ∈ options.targets)
      (absent : files.pathExists target = false)
  /-- A pattern of excluded paths cannot be used below a directory to inspect. Though the configuration is at
  fault, this does not count as invalid input. -/
  | exclude {config : Config} {target pattern : String}
      (searches : Searches engine globs formats files options config) (isTarget : target ∈ options.targets)
      (isDirectory : files.isDirectory target = true) (isExclude : pattern ∈ config.excludes)
      (refused : Discovery.acceptsExclude pattern = false)
  /-- A directory to inspect cannot be searched. -/
  | walk {config : Config} {target : String}
      (searches : Searches engine globs formats files options config) (isTarget : target ∈ options.targets)
      (isDirectory : files.isDirectory target = true) (malformed : ¬files.Searchable target)

/-! ### The configuration -/

theorem eq_of_loads {other : Config} (loads : Loads formats files options config)
    (otherLoads : Loads formats files options other) : config = other :=
  Except.ok.inj (loads.symm.trans otherLoads)

/-- If the configuration is loaded, its text is not refused. -/
theorem not_refused_of_loads {text : String} {cause : ConfigError} (loads : Loads formats files options config)
    (isText : files.text? (configPath files options) = some text) :
    (Config.read formats text).result ≠ .error cause := by
  intro refused
  rw [configPath] at isText
  rw [Loads, Config.result_load, if_pos (FileSystem.pathExists_of_text? isText), isText] at loads
  simp only [refused] at loads
  contradiction

theorem not_unreadable_of_loads (loads : Loads formats files options config)
    (isThere : files.pathExists (configPath files options) = true) :
    files.text? (configPath files options) ≠ none := by
  intro noText
  rw [configPath] at isThere noText
  rw [Loads, Config.result_load, if_pos isThere, noText] at loads
  contradiction

/-! ### The rules -/

/-- A loaded configuration is faulty exactly if no set of rules can be made of it. -/
theorem invalidInput_iff_of_loads (loads : Loads formats files options config) :
    InvalidInput engine globs formats files options ↔
      ¬∃ set, RuleSet.ofConfig engine globs config options.selectors options.filter = .ok set := by
  rw [RuleSet.exists_ofConfig_iff (Config.selective_load loads)]
  constructor
  · rintro invalid ⟨usable, denote⟩
    cases invalid with
    | config isText refused => exact not_refused_of_loads loads isText refused
    | exclude otherLoads isWanted refused =>
        obtain rfl := eq_of_loads loads otherLoads
        exact refused (usable _ isWanted)
    | selector otherLoads isAsked isSelector refused =>
        obtain rfl := eq_of_loads loads otherLoads
        have denotes := denote _ isAsked _ isSelector
        rw [refused] at denotes
        contradiction
  · intro noSet
    rcases not_and_or.mp noSet with notUsable | notParsed
    · simp only [not_forall] at notUsable
      obtain ⟨entry, isWanted, refused⟩ := notUsable
      exact .exclude loads isWanted refused
    · simp only [not_forall, Option.not_isSome_iff_eq_none] at notParsed
      obtain ⟨rule, isAsked, pattern, isSelector, refused⟩ := notParsed
      exact .selector loads isAsked isSelector refused

/-! ### The files -/

theorem OtherFailure.unreadable_or_searches (other : OtherFailure engine globs formats files options) :
    (files.pathExists (configPath files options) = true ∧ files.text? (configPath files options) = none) ∨
      ∃ config, Searches engine globs formats files options config := by
  cases other with
  | unreadable isThere noText => exact .inl ⟨isThere, noText⟩
  | missing searches => exact .inr ⟨_, searches⟩
  | exclude searches => exact .inr ⟨_, searches⟩
  | walk searches => exact .inr ⟨_, searches⟩

/-- With a loaded configuration, what else can stop a run comes after the rules. -/
theorem searches_of_otherFailure (loads : Loads formats files options config)
    (other : OtherFailure engine globs formats files options) :
    Searches engine globs formats files options config := by
  rcases other.unreadable_or_searches with ⟨isThere, noText⟩ | ⟨others, searches⟩
  · exact absurd noText (not_unreadable_of_loads loads isThere)
  · exact eq_of_loads loads searches.loads ▸ searches

/-- A run that comes to searching for files is stopped exactly if they cannot be found. -/
theorem otherFailure_iff_of_searches (searches : Searches engine globs formats files options config) :
    OtherFailure engine globs formats files options ↔
      ¬∃ found, Discovery.discover files config.excludes options.targets = .ok found := by
  simp only [Discovery.exists_discover_iff, Discovery.exists_filesFor_iff]
  constructor
  · intro other found
    cases other with
    | unreadable isThere noText => exact not_unreadable_of_loads searches.loads isThere noText
    | missing _ isTarget absent =>
        have isThere := (found _ isTarget).1
        rw [absent] at isThere
        contradiction
    | exclude others isTarget isDirectory isExclude refused =>
        obtain rfl := eq_of_loads searches.loads others.loads
        have accepted := ((found _ isTarget).2 isDirectory).1 _ isExclude
        rw [refused] at accepted
        contradiction
    | walk _ isTarget isDirectory malformed => exact malformed ((found _ isTarget).2 isDirectory).2
  · intro notFound
    simp only [not_forall] at notFound
    obtain ⟨target, isTarget, notFound⟩ := notFound
    by_cases isThere : files.pathExists target = true
    · simp only [isThere, true_and, not_forall] at notFound
      obtain ⟨isDirectory, notFound⟩ := notFound
      rcases not_and_or.mp notFound with notUsable | malformed
      · simp only [not_forall, Bool.not_eq_true] at notUsable
        obtain ⟨pattern, isExclude, refused⟩ := notUsable
        exact .exclude searches isTarget isDirectory isExclude refused
      · exact .walk searches isTarget isDirectory malformed
    · exact .missing searches isTarget (Bool.not_eq_true _ ▸ isThere)

/-- The inspection of files fails only if they are not found. -/
theorem result_inspect (formats : Formats) (files : FileSystem) {set : RuleSet}
    (isSet : RuleSet.ofConfig engine globs config options.selectors options.filter = .ok set) :
    match Discovery.discover files config.excludes options.targets with
    | .error cause => (inspect engine globs formats files options config set).result = .error (.discovery cause)
    | .ok _ => ∃ result, (inspect engine globs formats files options config set).result = .ok result := by
  obtain ⟨bare, isBare, rfl⟩ := RuleSet.exists_ofRules_of_ofConfig isSet
  have begins : ∀ base, (inspect engine globs formats files options config (bare.withBase base)).result =
      ((Discovery.discover files config.excludes options.targets).mapError RunError.discovery).bind fun found =>
        ((Inspection.report (bare.withBase base) engine globs formats files options.failFast
          found).result.mapError RunError.matching).bind fun report =>
            .ok ⟨if report.diagnostics.isEmpty then .clean else .offenses,
              report.render options.reportFormat⟩ := by
    intro base
    rw [inspect]
    split <;> simp only [Attempt.result_bind, Attempt.result_log, Attempt.result_ofExcept,
      Attempt.result_mapError, Attempt.result_pure, Except.bind]
  rw [begins]
  cases Discovery.discover files config.excludes options.targets with
  | error cause => rfl
  | ok found =>
      obtain ⟨report, isReport⟩ :=
        Inspection.exists_report isBare globs formats (RuleSet.configDir config) files options.failFast found
      simp only [Except.mapError, Except.bind, isReport]
      exact ⟨_, rfl⟩

theorem result_perform_of_loads (loads : Loads formats files options config) :
    (perform engine globs formats files options).result =
      match RuleSet.ofConfig engine globs config options.selectors options.filter with
      | .error cause => .error (.rules cause)
      | .ok set =>
          if options.listRules then .ok ⟨.clean, listing set⟩
          else if options.explain then .ok ⟨.clean, set.registry.explain⟩
          else (inspect engine globs formats files options config set).result := by
  rw [perform, Attempt.result_bind, prepare]
  simp only [Attempt.result_bind, Attempt.result_mapError, Attempt.result_log, Attempt.result_ofExcept,
    Attempt.result_pure]
  rw [loads]
  simp only [Except.mapError, Except.bind]
  cases RuleSet.ofConfig engine globs config options.selectors options.filter with
  | error cause => rfl
  | ok set =>
      dsimp only
      split
      · rfl
      · split <;> rfl

/-! ### How runs end -/

/-- A run ends with a result, over its input, or over something else. -/
inductive Ends (engine : RegexEngine) (globs : GlobEngine) (formats : Formats) (files : FileSystem)
    (options : Options) : Prop where
  | finished {result : RunResult} (isResult : (perform engine globs formats files options).result = .ok result)
      (valid : ¬InvalidInput engine globs formats files options)
      (noOther : ¬OtherFailure engine globs formats files options)
  | refused {error : RunError} (isResult : (perform engine globs formats files options).result = .error error)
      (status : error.status = .invalidInput) (invalid : InvalidInput engine globs formats files options)
      (noOther : ¬OtherFailure engine globs formats files options)
  | stopped {error : RunError} (isResult : (perform engine globs formats files options).result = .error error)
      (status : error.status = .failure) (valid : ¬InvalidInput engine globs formats files options)
      (other : OtherFailure engine globs formats files options)

/-- A run without a configuration that can be loaded ends over it. -/
theorem ends_of_not_loads (engine : RegexEngine) (globs : GlobEngine)
    (notLoaded : ∀ config, ¬Loads formats files options config) :
    Ends engine globs formats files options := by
  have isLoad := Config.result_load formats files options.config (targetDirectory files options.targets)
  have failed : ∀ cause,
      (Config.load formats files options.config (targetDirectory files options.targets)).result
        = .error cause →
        (perform engine globs formats files options).result = .error (.config cause) := by
    intro cause isCause
    rw [perform, Attempt.result_bind, prepare, Attempt.result_bind, Attempt.result_mapError, isCause]
    rfl
  split at isLoad
  · rename_i isThere
    split at isLoad
    · rename_i noText
      refine .stopped (failed _ isLoad) rfl (fun invalid => ?_) (.unreadable isThere noText)
      cases invalid with
      | config isText =>
          rw [configPath, noText] at isText
          contradiction
      | exclude loads => exact notLoaded _ loads
      | selector loads => exact notLoaded _ loads
    · rename_i text isText
      split at isLoad
      · rename_i cause refused
        refine .refused (failed _ isLoad) (RunError.status_eq _) (.config isText refused) fun other => ?_
        rcases other.unreadable_or_searches with ⟨_, noText⟩ | ⟨config, searches⟩
        · rw [configPath, isText] at noText
          contradiction
        · exact notLoaded config searches.loads
      · exact absurd isLoad (notLoaded _)
  · exact absurd isLoad (notLoaded _)

/-- A run that comes to searching for files ends over them, or with a result. -/
theorem ends_of_searches (searches : Searches engine globs formats files options config) :
    Ends engine globs formats files options := by
  have isResult := @result_perform_of_loads engine globs _ _ _ _ searches.loads
  have stopped := otherFailure_iff_of_searches searches
  obtain ⟨set, isSet⟩ := not_not.mp (mt (invalidInput_iff_of_loads searches.loads).mpr searches.isValid)
  have inspected := result_inspect formats files isSet
  simp only [isSet, searches.notListing, searches.notExplaining, Bool.false_eq_true, if_false] at isResult
  cases isFound : Discovery.discover files config.excludes options.targets with
  | error cause =>
      simp only [isFound] at inspected
      refine .stopped (isResult.trans inspected) (RunError.status_eq _) searches.isValid ?_
      rw [stopped, isFound]
      exact nofun
  | ok found =>
      simp only [isFound] at inspected
      obtain ⟨result, isReported⟩ := inspected
      refine .finished (isResult.trans isReported) searches.isValid ?_
      rw [stopped, isFound]
      exact not_not_intro ⟨found, rfl⟩

/-- A run with a configuration ends over its rules or over the files, or with a result. -/
theorem ends_of_loads (engine : RegexEngine) (globs : GlobEngine) (loads : Loads formats files options config) :
    Ends engine globs formats files options := by
  have isResult := @result_perform_of_loads engine globs _ _ _ _ loads
  have faulty := @invalidInput_iff_of_loads engine globs _ _ _ _ loads
  cases isSet : RuleSet.ofConfig engine globs config options.selectors options.filter with
  | error cause =>
      simp only [isSet] at isResult
      have invalid : InvalidInput engine globs formats files options := by
        rw [faulty, isSet]
        exact nofun
      exact .refused isResult rfl invalid fun other => (searches_of_otherFailure loads other).isValid invalid
  | ok set =>
      simp only [isSet] at isResult
      have valid : ¬InvalidInput engine globs formats files options := by
        rw [faulty, isSet]
        exact not_not_intro ⟨set, rfl⟩
      cases isListing : options.listRules with
      | true =>
          rw [isListing] at isResult
          refine .finished isResult valid fun other => ?_
          exact absurd (searches_of_otherFailure loads other).notListing (isListing ▸ nofun)
      | false =>
          cases isExplaining : options.explain with
          | true =>
              rw [isListing, isExplaining] at isResult
              refine .finished isResult valid fun other => ?_
              exact absurd (searches_of_otherFailure loads other).notExplaining (isExplaining ▸ nofun)
          | false => exact ends_of_searches ⟨loads, valid, isListing, isExplaining⟩

theorem ends (engine : RegexEngine) (globs : GlobEngine) (formats : Formats) (files : FileSystem)
    (options : Options) :
    Ends engine globs formats files options := by
  by_cases loaded : ∃ config, Loads formats files options config
  · obtain ⟨config, loads⟩ := loaded
    exact ends_of_loads engine globs loads
  · exact ends_of_not_loads engine globs (not_exists.mp loaded)

/-! ### The numbers of failed runs -/

theorem failsWith_iff_of_error {error : RunError}
    (isResult : (perform engine globs formats files options).result = .error error) (code : Nat) :
    FailsWith engine globs formats files options code ↔ code = error.status.code := by
  rw [FailsWith, isResult]
  constructor
  · rintro ⟨_, same, rfl⟩
    rw [Except.error.inj same]
  · rintro rfl
    exact ⟨error, rfl, rfl⟩

/-- A run fails with the number 2 exactly if its configuration, a wanted rule or a selector is refused, and with
the number 3 exactly if something else stops it, to which patterns of excluded paths belong. It fails with no
other number. -/
theorem failsWith_iff (engine : RegexEngine) (globs : GlobEngine) (formats : Formats) (files : FileSystem)
    (options : Options) (code : Nat) :
    FailsWith engine globs formats files options code ↔
      (code = 2 ∧ InvalidInput engine globs formats files options) ∨
        (code = 3 ∧ OtherFailure engine globs formats files options) := by
  cases ends engine globs formats files options with
  | finished isResult valid noOther =>
      simp only [FailsWith, isResult, valid, noOther, reduceCtorEq, false_and, exists_false, and_false,
        or_false]
  | refused isResult status invalid noOther =>
      rw [failsWith_iff_of_error isResult, status]
      simp only [invalid, noOther, and_true, and_false, or_false]
      rfl
  | stopped isResult status valid other =>
      rw [failsWith_iff_of_error isResult, status]
      simp only [valid, other, and_true, and_false, false_or]
      rfl

/-- A directory with a configuration in which a malformed pattern is left out of every search. -/
def malformedExclude : FileSystem :=
  ⟨.directory [(".nodesel.yml", .file "AllFiles: \x7bExclude: ['[']\x7d\n".toUTF8.toList),
    ("a.json", .file "\x7b\"type\":\"A\"\x7d".toUTF8.toList)], [], fun _ => ""⟩

theorem loads_malformedExclude :
    Loads .standard malformedExclude { Options.unset with selectors := ["*"] }
      ⟨some "./.nodesel.yml", [], ["["]⟩ := by
  have isPath : configPath malformedExclude { Options.unset with selectors := ["*"] } = "./.nodesel.yml" := by
    decide +kernel
  have isThere : malformedExclude.pathExists "./.nodesel.yml" = true := by decide +kernel
  have isText : malformedExclude.text? "./.nodesel.yml" = some "AllFiles: \x7bExclude: ['[']\x7d\n" := by
    decide +kernel
  have isTokens : Yaml.Token.ofText "AllFiles: \x7bExclude: ['[']\x7d\n".toList = some
      [.blockMappingStart, .key, .scalar true "AllFiles", .value, .flowMappingStart,
        .key, .scalar true "Exclude", .value, .flowSequenceStart, .scalar false "[", .flowSequenceEnd,
        .flowMappingEnd, .blockEnd, .streamEnd] := by
    decide +kernel
  have isValue : Yaml.ofDocument ⟨some (.mapping none [(.scalar none true "AllFiles", .mapping none
      [(.scalar none true "Exclude", .sequence none [.scalar none false "["])])]), []⟩
      = some (.mapping [(.string "AllFiles", .mapping [(.string "Exclude", .sequence [.string "["])])]) := by
    simp only [Yaml.ofDocument, Yaml.evaluate, Yaml.evaluateEntries, Yaml.evaluateItems, Yaml.maxDepth]
    with_unfolding_all rfl
  have isRead : (Config.read .standard "AllFiles: \x7bExclude: ['[']\x7d\n").result = .ok ⟨none, [], ["["]⟩ := by
    rw [Config.result_read_of_document isTokens rfl isValue]
    rfl
  rw [configPath] at isPath
  simp only [Loads, Config.result_load, isPath, isThere, if_true, isText, isRead]

/-- Everything in this configuration can be read but the pattern, and a run over the directory fails with the
number 3. -/
theorem failsWith_iff_malformed :
    Loads .standard malformedExclude { Options.unset with selectors := ["*"] }
        ⟨some "./.nodesel.yml", [], ["["]⟩ ∧
      Discovery.acceptsExclude "[" = false ∧
      FailsWith .standard .standard .standard malformedExclude { Options.unset with selectors := ["*"] } 3 := by
  have loads := loads_malformedExclude
  have refused : Discovery.acceptsExclude "[" = false := by decide +kernel
  have isDirectory : malformedExclude.isDirectory "." = true := by decide +kernel
  have denotes : (Pattern.selector? .standard "*").isSome = true := by decide +kernel
  have valid :
      ¬InvalidInput .standard .standard .standard malformedExclude
        { Options.unset with selectors := ["*"] } := by
    rw [invalidInput_iff_of_loads loads, not_not, RuleSet.exists_ofConfig_iff (Config.selective_load loads)]
    refine ⟨nofun, fun rule isAsked pattern isSelector => ?_⟩
    obtain rfl := List.mem_singleton.mp isAsked
    obtain rfl := List.mem_singleton.mp isSelector
    exact denotes
  have searches : Searches .standard .standard .standard malformedExclude
      { Options.unset with selectors := ["*"] } ⟨some "./.nodesel.yml", [], ["["]⟩ := ⟨loads, valid, rfl, rfl⟩
  refine ⟨loads, refused, (failsWith_iff .standard .standard .standard malformedExclude _ 3).mpr (.inr ⟨rfl, ?_⟩)⟩
  exact .exclude searches (List.mem_singleton_self ".") isDirectory (List.mem_singleton_self "[") refused

end Run

end TreeLint
