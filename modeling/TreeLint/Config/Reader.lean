import TreeLint.Config.Basic
import TreeLint.Document.Formats
import TreeLint.Error.Cause
import TreeLint.Log.Logged

/-!
Contract: from a YAML document to a configuration.

Owns: which keys a configuration has and what their values must be. Keys of rules that are not known are
logged and left out; all other unknown keys are left out silently. The first fault in the order of the document
is reported, and what was logged before it is kept.
-/

set_option autoImplicit false

namespace TreeLint

inductive RuleFault where
  | notMapping
  | selectorShape
  | messageShape
  | severityShape
  | unknownSeverity (word : String)
  | enabledShape
  | excludeShape
  | missingSelector
  deriving DecidableEq, Repr

def RuleFault.message : RuleFault → String
  | .notMapping => "expected a mapping"
  | .selectorShape => "Selector must be a string or a list"
  | .messageShape => "Message must be a string"
  | .severityShape => "Severity must be a string"
  | .unknownSeverity word =>
      "unknown severity \x60" ++ word ++ "\x60 (expected info, warning, error or fatal)"
  | .enabledShape => "Enabled must be true or false"
  | .excludeShape => "Exclude must be a list"
  | .missingSelector => "missing Selector"

inductive ConfigError where
  | invalidYaml (reason : String)
  /-- The document is neither empty nor a mapping. -/
  | rootShape
  /-- The value of `Rules` is neither empty nor a mapping. -/
  | rulesShape
  | invalidRule (rule : String) (fault : RuleFault)
  deriving DecidableEq, Repr

namespace ConfigError

/-- The key whose value has the wrong shape. -/
def key? : ConfigError → Option String
  | .rootShape => some "<root>"
  | .rulesShape => some "Rules"
  | _ => none

def message : ConfigError → String
  | .invalidYaml _ => "invalid YAML"
  | .rootShape => "\x60<root>\x60 must be a mapping"
  | .rulesShape => "\x60Rules\x60 must be a mapping of rule names"
  | .invalidRule rule fault => "rule \x60" ++ rule ++ "\x60: " ++ fault.message

def chain (error : ConfigError) : List Cause :=
  match error with
  | .invalidYaml reason => [⟨.context, error.message⟩, ⟨.document, reason⟩]
  | _ => [⟨.config, error.message⟩]

end ConfigError

namespace RuleConfig

/-- The strings in a list; other items are left out. -/
def strings? (value : Yaml) : Option (List String) :=
  value.sequence?.map fun items => items.filterMap Yaml.string?

/-- The selectors that a value gives: a string is a single one. -/
def selectors? : Yaml → Option (List String)
  | .string selector => some [selector]
  | value => strings? value

inductive Key where
  | selector
  | message
  | severity
  | enabled
  | exclude
  deriving DecidableEq, Repr

def Key.ofName? : String → Option Key
  | "Selector" | "Selectors" => some .selector
  | "Message" => some .message
  | "Severity" => some .severity
  | "Enabled" => some .enabled
  | "Exclude" => some .exclude
  | _ => none

/-- The settings with one of them read from a value. -/
def set (config : RuleConfig) (key : Key) (value : Yaml) : Except RuleFault RuleConfig :=
  match key with
  | .selector =>
      match selectors? value with
      | some selectors => .ok { config with selectors := selectors }
      | none => .error .selectorShape
  | .message =>
      match value.string? with
      | some text => .ok { config with message := some text }
      | none => .error .messageShape
  | .severity =>
      match value.string? with
      | none => .error .severityShape
      | some word =>
          match Severity.read? word with
          | some severity => .ok { config with severity := some severity }
          | none => .error (.unknownSeverity word)
  | .enabled =>
      match value.bool? with
      | some truth => .ok { config with enabled := truth }
      | none => .error .enabledShape
  | .exclude =>
      match strings? value with
      | some patterns => .ok { config with excludes := patterns }
      | none => .error .excludeShape

def unknownKey (rule key : String) : LogRecord :=
  ⟨.warn, .config, "ignoring unknown rule key", [("rule", .quoted rule), ("key", .quoted key)]⟩

def readEntries (rule : String) (config : RuleConfig) :
    List (Yaml × Yaml) → Attempt RuleFault RuleConfig
  | [] => if config.selectors.isEmpty then .fail .missingSelector else pure config
  | (key, value) :: rest =>
      match key.string? with
      | none => readEntries rule config rest
      | some name =>
          match Key.ofName? name with
          | none => do
              .log (unknownKey rule name)
              readEntries rule config rest
          | some key => do
              let config ← .ofExcept (config.set key value)
              readEntries rule config rest

def ofYaml (rule : String) (value : Yaml) : Attempt RuleFault RuleConfig :=
  match value.mapping? with
  | some entries => readEntries rule .unset entries
  | none => .fail .notMapping

end RuleConfig

namespace Config

/-- Reads rules one after another. Entries whose key is no string are left out. -/
def readRules (config : Config) : List (Yaml × Yaml) → Attempt ConfigError Config
  | [] => pure config
  | (key, value) :: rest =>
      match key.string? with
      | none => readRules config rest
      | some name => do
          let settings ← (RuleConfig.ofYaml name value).mapError (.invalidRule name)
          readRules { config with rules := config.rules ++ [(name, settings)] } rest

/-- The patterns under `Exclude`, if there is a list. -/
def excludes? (value : Yaml) : Option (List String) := do
  let entries ← value.mapping?
  RuleConfig.strings? (← Yaml.lookup? "Exclude" entries)

def readEntry (config : Config) (key value : Yaml) : Attempt ConfigError Config :=
  match key.string? with
  | some "AllFiles" => pure { config with excludes := (excludes? value).getD config.excludes }
  | some "Rules" =>
      match value.mapping? with
      | some rules => readRules config rules
      | none => if value.isNull then pure config else .fail .rulesShape
  | _ => pure config

def readEntries (config : Config) : List (Yaml × Yaml) → Attempt ConfigError Config
  | [] => pure config
  | (key, value) :: rest => do
      let config ← config.readEntry key value
      config.readEntries rest

def ofYaml : Yaml → Attempt ConfigError Config
  | .null => pure .empty
  | .mapping entries => readEntries .empty entries
  | _ => .fail .rootShape

def read (formats : Formats) (text : String) : Attempt ConfigError Config :=
  match formats.yaml text with
  | .ok value => ofYaml value
  | .error reason => .fail (.invalidYaml reason)

end Config

end TreeLint
