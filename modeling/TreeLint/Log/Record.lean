import TreeLint.Text.Quoted

/-!
Contract: what is logged while the program works.

Owns: records with a level, the part of the program that they come from, a message and fields, and the line
in which a record is shown.
-/

set_option autoImplicit false

namespace TreeLint

inductive LogLevel where
  | trace
  | debug
  | info
  | warn
  | error
  deriving DecidableEq, Repr

namespace LogLevel

def name : LogLevel → String
  | .trace => "TRACE"
  | .debug => "DEBUG"
  | .info => "INFO"
  | .warn => "WARN"
  | .error => "ERROR"

def rank : LogLevel → Nat
  | .trace => 0
  | .debug => 1
  | .info => 2
  | .warn => 3
  | .error => 4

end LogLevel

/-- The part of the program that a record comes from. -/
inductive LogArea where
  | main
  | config
  | files
  | events
  | attributes
  | linter
  deriving DecidableEq, Repr

/-- The name by which a filter selects an area. -/
def LogArea.target : LogArea → String
  | .main => "nodesel"
  | .config => "nodesel::config"
  | .files => "nodesel::fs"
  | .events => "nodesel::generator"
  | .attributes => "nodesel::matcher::attribute"
  | .linter => "nodesel::linter"

inductive LogValue where
  /-- Shown between quotes. -/
  | quoted (text : String)
  /-- Shown as it is. -/
  | plain (text : String)
  | number (value : Nat)
  /-- A duration, which is not kept. -/
  | duration
  deriving DecidableEq, Repr

def LogValue.render : LogValue → String
  | .quoted text => String.ofList (Text.quoted text.toList)
  | .plain text => text
  | .number value => toString value
  | .duration => "_"

structure LogRecord where
  level : LogLevel
  area : LogArea
  message : String
  fields : List (String × LogValue)
  deriving DecidableEq, Repr

/-- The line of a record: its level, its message, and its fields. -/
def LogRecord.render (record : LogRecord) : String :=
  record.level.name ++ " " ++ record.message
    ++ String.join (record.fields.map fun (key, value) => " " ++ key ++ "=" ++ value.render)

end TreeLint
