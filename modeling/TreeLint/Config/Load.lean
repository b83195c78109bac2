import TreeLint.Config.Reader
import TreeLint.Files.Basic

/-!
Contract: where the configuration comes from.

Owns: the choice of the configuration file, which is the one that is named, or else the one in the target
directory if there is one, or else the one in the working directory; and the reading of that file. A missing
file says nothing.
-/

set_option autoImplicit false

namespace TreeLint

inductive LoadError where
  /-- The file is not a text. -/
  | unreadable (path reason : String)
  | refused (path : String) (cause : ConfigError)
  deriving DecidableEq, Repr

namespace LoadError

/-- The outermost words of the error. -/
def message : LoadError → String
  | .unreadable path _ => "failed to read config " ++ path
  | .refused path _ => "failed to load config " ++ path

/-- The error and its causes, the outermost first. -/
def chain (error : LoadError) : List Cause :=
  ⟨.context, error.message⟩ ::
    match error with
    | .unreadable _ reason => [⟨.system, reason⟩]
    | .refused _ cause => cause.chain

end LoadError

namespace Config

def fileName : String := ".nodesel.yml"

/-- The configuration file for a target directory, or the one that is named. -/
def filePath (files : FileSystem) (named target : Option String) : String :=
  match named with
  | some path => path
  | none =>
      match target.map fun directory => Path.below directory fileName with
      | some candidate => if files.pathExists candidate then candidate else fileName
      | none => fileName

def loadedRecord (path : String) (config : Config) : LogRecord :=
  ⟨.debug, .config, "loaded config",
    [("path", .plain path), ("rules", .number config.rules.length),
      ("excludes", .number config.excludes.length)]⟩

def missingRecord (path : String) : LogRecord :=
  ⟨.debug, .config, "no config file found", [("path", .plain path)]⟩

def readFile (formats : Formats) (files : FileSystem) (path : String) : Attempt LoadError Config :=
  match files.text? path with
  | none => .fail (.unreadable path (files.complaint path))
  | some text => do
      let config ← (Config.read formats text).mapError (.refused path)
      .log (loadedRecord path config)
      return { config with path := some path }

/-- The configuration for a target directory, or the one that is named. -/
def load (formats : Formats) (files : FileSystem) (named target : Option String) :
    Attempt LoadError Config :=
  let path := filePath files named target
  if files.pathExists path then readFile formats files path
  else do
    .log (missingRecord path)
    return .empty

end Config

end TreeLint
