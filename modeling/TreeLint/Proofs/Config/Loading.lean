import TreeLint.Config.Load

/-!
Contract: what a configuration that was loaded has.

Owns:
- the selectors of the rules that are read, of which each rule has one at least;
- what a text denotes by the standard formats, stage by stage;
- the result of loading, which is decided by whether the chosen file exists, whether it is a text, and what the
  text denotes.

Does not own: which texts denote a configuration.
-/

set_option autoImplicit false

namespace TreeLint

/-! ### Selectors -/

namespace RuleConfig

theorem selectors_ne_nil_of_readEntries {rule : String} {config settings : RuleConfig}
    {entries : List (Yaml × Yaml)} (isRead : (readEntries rule config entries).result = .ok settings) :
    settings.selectors ≠ [] := by
  induction entries generalizing config with
  | nil =>
      rw [readEntries] at isRead
      split at isRead
      · contradiction
      · rename_i someSelector
        obtain rfl := Except.ok.inj isRead
        exact fun isNil => someSelector (List.isEmpty_iff.mpr isNil)
  | cons entry rest inductionHypothesis =>
      obtain ⟨key, value⟩ := entry
      rw [readEntries] at isRead
      split at isRead
      · exact inductionHypothesis isRead
      · split at isRead
        · obtain ⟨_, _, isRead⟩ := Attempt.exists_of_result_bind isRead
          exact inductionHypothesis isRead
        · obtain ⟨_, _, isRead⟩ := Attempt.exists_of_result_bind isRead
          exact inductionHypothesis isRead

theorem selectors_ne_nil {rule : String} {value : Yaml} {settings : RuleConfig}
    (isRead : (ofYaml rule value).result = .ok settings) : settings.selectors ≠ [] := by
  rw [ofYaml] at isRead
  split at isRead
  · exact selectors_ne_nil_of_readEntries isRead
  · contradiction

end RuleConfig

namespace Config

/-- Every rule has a selector. -/
def Selective (config : Config) : Prop := ∀ entry ∈ config.rules, entry.2.selectors ≠ []

theorem selective_empty : empty.Selective := fun _ member => absurd member List.not_mem_nil

theorem selective_readRules {config result : Config} {entries : List (Yaml × Yaml)}
    (selective : config.Selective) (isRead : (readRules config entries).result = .ok result) :
    result.Selective := by
  induction entries generalizing config with
  | nil =>
      obtain rfl := Except.ok.inj isRead
      exact selective
  | cons entry rest inductionHypothesis =>
      obtain ⟨key, value⟩ := entry
      rw [readRules] at isRead
      split at isRead
      · exact inductionHypothesis selective isRead
      · rename_i name _
        obtain ⟨settings, isSettings, isRead⟩ := Attempt.exists_of_result_bind isRead
        refine inductionHypothesis (fun entry member => ?_) isRead
        rcases List.mem_append.mp member with old | new
        · exact selective entry old
        · obtain rfl := List.mem_singleton.mp new
          exact RuleConfig.selectors_ne_nil (Attempt.of_result_mapError isSettings)

theorem selective_readEntry {config result : Config} {key value : Yaml} (selective : config.Selective)
    (isRead : (readEntry config key value).result = .ok result) : result.Selective := by
  rw [readEntry] at isRead
  split at isRead
  · obtain rfl := Except.ok.inj isRead
    exact selective
  · split at isRead
    · exact selective_readRules selective isRead
    · split at isRead
      · obtain rfl := Except.ok.inj isRead
        exact selective
      · contradiction
  · obtain rfl := Except.ok.inj isRead
    exact selective

theorem selective_readEntries {config result : Config} {entries : List (Yaml × Yaml)}
    (selective : config.Selective) (isRead : (readEntries config entries).result = .ok result) :
    result.Selective := by
  induction entries generalizing config with
  | nil =>
      obtain rfl := Except.ok.inj isRead
      exact selective
  | cons entry rest inductionHypothesis =>
      obtain ⟨between, isBetween, isRead⟩ := Attempt.exists_of_result_bind isRead
      exact inductionHypothesis (selective_readEntry selective isBetween) isRead

theorem selective_read {formats : Formats} {text : String} {config : Config}
    (isRead : (read formats text).result = .ok config) : config.Selective := by
  rw [read] at isRead
  split at isRead
  · unfold ofYaml at isRead
    split at isRead
    · obtain rfl := Except.ok.inj isRead
      exact selective_empty
    · exact selective_readEntries selective_empty isRead
    · contradiction
  · contradiction

/-! ### Loading -/

/-- What a text denotes by the standard formats, by way of its tokens, its document and the value of the document. -/
theorem result_read_of_document {text : String} {tokens : List Yaml.Token} {document : Yaml.Document}
    {value : Yaml} (isTokens : Yaml.Token.ofText text.toList = some tokens)
    (isDocument : Yaml.Document.ofTokens tokens = some document)
    (isValue : Yaml.ofDocument document = some value) :
    (read .standard text).result = (ofYaml value).result := by
  have isRead : Yaml.read? text = some value := by
    rw [Yaml.read?, isTokens, Option.bind_eq_bind, Option.bind_some, isDocument]
    exact isValue
  simp only [read, Formats.standard, isRead, Option.elim_some]

variable {formats : Formats} {files : FileSystem} {named target : Option String}

/-- The result of loading a configuration. -/
theorem result_load (formats : Formats) (files : FileSystem) (named target : Option String) :
    (load formats files named target).result =
      if files.pathExists (filePath files named target) then
        match files.text? (filePath files named target) with
        | none =>
            let path := filePath files named target
            .error (.unreadable path (files.complaint path))
        | some text =>
            match (read formats text).result with
            | .error cause => .error (.refused (filePath files named target) cause)
            | .ok config => .ok { config with path := some (filePath files named target) }
      else .ok .empty := by
  rw [load]
  split
  · rw [readFile]
    cases files.text? (filePath files named target) with
    | none => rfl
    | some text =>
        simp only [Attempt.result_bind, Attempt.result_mapError]
        cases (read formats text).result <;> rfl
  · rfl

theorem selective_load {config : Config} (loaded : (load formats files named target).result = .ok config) :
    config.Selective := by
  rw [result_load] at loaded
  split at loaded
  · split at loaded
    · contradiction
    · split at loaded
      · contradiction
      · rename_i isRead
        obtain rfl := Except.ok.inj loaded
        exact fun entry member => selective_read isRead entry member
  · obtain rfl := Except.ok.inj loaded
    exact selective_empty

end Config

end TreeLint
