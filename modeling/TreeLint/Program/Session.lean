import TreeLint.Log.Filter
import TreeLint.Program.CommandLine
import TreeLint.Program.Run

/-!
Contract: one use of the program, from the words of the command line to what is written.

Owns: the choice of the records that are shown; and what is written to the output and to the error output, and the
number that the program ends with. A failed run writes nothing to the output, and its error stands after the
records.
-/

set_option autoImplicit false

namespace TreeLint

structure Session where
  exitCode : Nat
  output : String
  /-- What is written to the error output. -/
  messages : List String
  deriving DecidableEq, Repr

namespace Session

def version : String := "nodesel 0.1.0"

def usage : String :=
  "Usage: nodesel [-c FILE] [-f text|json] [-s PATTERN]... [--only NAMES] [--except NAMES]\n"
    ++ "               [--list-rules] [--explain] [-F] [--debug] [PATHS]..."

/-- The number that the program ends with if the command line is refused. -/
def usageCode : Nat := 2

/-- The variable that chooses the records that are shown. -/
def logVariable : String := "NODESEL_LOG"

/-- The filter for records, and a warning if the wanted one is malformed. Debugging wins over a wanted filter; a
blank one counts as none. -/
def logFilter (debug : Bool) (wanted : Option String) : LogFilter × List String :=
  if debug then (.debugging, [])
  else
    match wanted.filter fun text => !text.toList.all Text.isBlank with
    | none => (.warnings, [])
    | some text =>
        match LogFilter.read? text with
        | some filter => (filter, [])
        | none =>
            (.warnings,
              ["warning: ignoring invalid " ++ logVariable ++ " value \x60" ++ text ++ "\x60"])

def ofRun (engine : RegexEngine) (globs : GlobEngine) (formats : Formats) (files : FileSystem)
    (wanted : Option String) (options : Options) : Session :=
  let (filter, warnings) := logFilter options.debug wanted
  let run := Run.perform engine globs formats files options
  let lines := warnings ++ (run.records.filter filter.shows).map LogRecord.render
  match run.result with
  | .ok result => ⟨result.status.code, result.output, lines⟩
  | .error error => ⟨error.status.code, "", lines ++ ["error: " ++ error.message]⟩

def ofWords (engine : RegexEngine) (globs : GlobEngine) (formats : Formats) (files : FileSystem)
    (wanted : Option String) (words : List String) : Session :=
  match CommandLine.read words with
  | .error error => ⟨usageCode, "", ["error: " ++ error.message, usage]⟩
  | .ok .version => ⟨0, version ++ "\n", []⟩
  | .ok .help => ⟨0, usage ++ "\n", []⟩
  | .ok (.run options) => ofRun engine globs formats files wanted options

end Session

end TreeLint
