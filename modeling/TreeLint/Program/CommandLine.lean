import TreeLint.Program.Options

/-!
Contract: from the words of a command line to options.

Owns:
- the options that take a value and the switches that take none, by their long and short names;
- the reading of words from left to right. A value stands after an equals sign, directly after a short name, or
  as the next word; short switches may share one dash; the word `--` ends the options;
- why words are refused. Selectors and rule names may be given again and again, everything else only once.

The first fault is reported, and the words after a request for help or for the version are not looked at.
-/

set_option autoImplicit false

namespace TreeLint

inductive ValueOption where
  | config
  | format
  | selector
  | only
  | except
  deriving DecidableEq, Repr

/-- An option that takes no value. -/
inductive Switch where
  | debug
  | listRules
  | explain
  | failFast
  | help
  | version
  deriving DecidableEq, Repr

inductive OptionKind where
  | value (option : ValueOption)
  | switch (switch : Switch)
  deriving DecidableEq, Repr

namespace OptionKind

def ofLong? : String → Option OptionKind
  | "config" => some (.value .config)
  | "format" => some (.value .format)
  | "selector" => some (.value .selector)
  | "only" => some (.value .only)
  | "except" => some (.value .except)
  | "debug" => some (.switch .debug)
  | "list-rules" => some (.switch .listRules)
  | "explain" => some (.switch .explain)
  | "fail-fast" => some (.switch .failFast)
  | "help" => some (.switch .help)
  | "version" => some (.switch .version)
  | _ => none

def ofShort? : Char → Option OptionKind
  | 'c' => some (.value .config)
  | 'f' => some (.value .format)
  | 's' => some (.value .selector)
  | 'F' => some (.switch .failFast)
  | 'h' => some (.switch .help)
  | 'V' => some (.switch .version)
  | _ => none

end OptionKind

inductive UsageError where
  | unknownOption (word : String)
  | missingValue (option : ValueOption)
  /-- A value for an option that takes none. -/
  | unexpectedValue (word : String)
  /-- An option that may be given once is given again. -/
  | repeated
  | emptyPath
  | unknownFormat (name : String)
  deriving DecidableEq, Repr

def UsageError.message : UsageError → String
  | .unknownOption word => "unexpected argument '" ++ word ++ "' found"
  | .missingValue _ => "a value is required for an option but none was supplied"
  | .unexpectedValue word => "unexpected value in '" ++ word ++ "'"
  | .repeated => "an option cannot be used multiple times"
  | .emptyPath => "a path cannot be empty"
  | .unknownFormat name => "invalid format '" ++ name ++ "' (possible formats: text, json)"

inductive Request where
  | run (options : Options)
  | version
  | help
  deriving DecidableEq, Repr

namespace Options

def addPath (options : Options) (path : String) : Except UsageError Options :=
  if path == "" then .error .emptyPath
  else .ok { options with paths := options.paths ++ [path] }

def set (options : Options) (option : ValueOption) (value : String) : Except UsageError Options :=
  match option with
  | .config =>
      if value == "" then .error .emptyPath
      else if options.config.isSome then .error .repeated
      else .ok { options with config := some value }
  | .format =>
      match ReportFormat.named? value with
      | none => .error (.unknownFormat value)
      | some format =>
          if options.format.isSome then .error .repeated
          else .ok { options with format := some format }
  | .selector => .ok { options with selectors := options.selectors ++ [value] }
  | .only => .ok { options with only := options.only ++ value.splitOn "," }
  | .except => .ok { options with except := options.except ++ value.splitOn "," }

/-- The options with a switch turned on, unless the switch asks for something else than a run. -/
def turnOn (options : Options) : Switch → Except UsageError Request
  | .debug => if options.debug then .error .repeated else .ok (.run { options with debug := true })
  | .listRules =>
      if options.listRules then .error .repeated else .ok (.run { options with listRules := true })
  | .explain =>
      if options.explain then .error .repeated else .ok (.run { options with explain := true })
  | .failFast =>
      if options.failFast then .error .repeated else .ok (.run { options with failFast := true })
  | .help => .ok .help
  | .version => .ok .version

end Options

namespace CommandLine

/-- What a word says, apart from a value that the next word has to bring. -/
inductive Reading where
  /-- The word is complete. -/
  | complete (request : Request)
  /-- The next word is the value of an option. -/
  | awaiting (options : Options) (option : ValueOption)
  deriving DecidableEq, Repr

/-- Reads short names that share a dash. What follows the name of an option that takes a value is that value,
with or without an equals sign before it. -/
def readShort (word : String) (options : Options) : List Char → Except UsageError Reading
  | [] => .ok (.complete (.run options))
  | name :: rest =>
      match OptionKind.ofShort? name with
      | none => .error (.unknownOption word)
      | some (.switch switch) =>
          match options.turnOn switch with
          | .ok (.run options) => readShort word options rest
          | .ok request => .ok (.complete request)
          | .error error => .error error
      | some (.value option) =>
          match rest with
          | [] => .ok (.awaiting options option)
          | '=' :: value => (options.set option (String.ofList value)).map (.complete ∘ .run)
          | value => (options.set option (String.ofList value)).map (.complete ∘ .run)

def readLong (word : String) (options : Options) (letters : List Char) : Except UsageError Reading :=
  let name := String.ofList (letters.takeWhile (· != '='))
  match OptionKind.ofLong? name, letters.dropWhile (· != '=') with
  | none, _ => .error (.unknownOption word)
  | some (.switch switch), [] => (options.turnOn switch).map .complete
  | some (.switch _), _ => .error (.unexpectedValue word)
  | some (.value option), [] => .ok (.awaiting options option)
  | some (.value option), _ :: value =>
      (options.set option (String.ofList value)).map (.complete ∘ .run)

def readWord (options : Options) (word : String) : Except UsageError Reading :=
  match word.toList with
  | '-' :: '-' :: letters => readLong word options letters
  | '-' :: letter :: letters => readShort word options (letter :: letters)
  | _ => (options.addPath word).map (.complete ∘ .run)

/-- Whether a word is the name of an option, so that it cannot be a value. -/
def isOption (word : String) : Bool := word.startsWith "-" && word != "-"

def readPaths (options : Options) (words : List String) : Except UsageError Request :=
  (words.foldlM Options.addPath options).map .run

def readFrom (options : Options) : List String → Except UsageError Request
  | [] => .ok (.run options)
  | word :: rest =>
      if word == "--" then readPaths options rest
      else
        match readWord options word with
        | .error error => .error error
        | .ok (.complete (.run options)) => readFrom options rest
        | .ok (.complete request) => .ok request
        | .ok (.awaiting options option) =>
            match rest with
            | [] => .error (.missingValue option)
            | value :: rest =>
                if isOption value then .error (.missingValue option)
                else
                  match options.set option value with
                  | .ok options => readFrom options rest
                  | .error error => .error error

def read (words : List String) : Except UsageError Request := readFrom .unset words

end CommandLine

end TreeLint
