import TreeLint.Json.Printer
import TreeLint.Report.Diagnostic

/-!
Contract: reports and their two written forms.

Owns: a report, which is what was found in a number of files; its form as plain text, with one line for each
diagnostic and a summary; and its form as a JSON document.
-/

set_option autoImplicit false

namespace TreeLint

structure Report where
  diagnostics : List Diagnostic
  fileCount : Nat
  deriving Repr

inductive ReportFormat where
  | text
  | json
  deriving DecidableEq, Repr

def ReportFormat.named? : String → Option ReportFormat
  | "text" => some .text
  | "json" => some .json
  | _ => none

/-- The form with a name; a name of no form means plain text. -/
def ReportFormat.ofName (name : String) : ReportFormat := (named? name).getD .text

namespace Report

def counted (n : Nat) (thing : String) : String :=
  toString n ++ " " ++ (if n = 1 then thing else thing ++ "s")

def summary (report : Report) : String :=
  counted report.fileCount "file" ++ " inspected, "
    ++ counted report.diagnostics.length "offense" ++ " detected"

/-- The lines of a plain report: one for each diagnostic, an empty one, and the summary. -/
def lines (report : Report) : List String :=
  report.diagnostics.map Diagnostic.text ++ ["", report.summary]

def jsonCount (n : Nat) : Json := .number (.whole false n)

def offense (diagnostic : Diagnostic) : Json :=
  .object
    [("path", .string diagnostic.path),
      ("line", jsonCount diagnostic.location.line),
      ("column", jsonCount diagnostic.location.column),
      ("severity", .string (String.singleton diagnostic.severity.letter)),
      ("rule_name", .string diagnostic.ruleName),
      ("message", .string diagnostic.message)]

def toJson (report : Report) : Json :=
  .object
    [("metadata",
        .object
          [("files_inspected", jsonCount report.fileCount),
            ("offense_count", jsonCount report.diagnostics.length)]),
      ("offenses", .array (report.diagnostics.map offense))]

def render (report : Report) : ReportFormat → String
  | .text => String.join (report.lines.map fun line => line ++ "\n")
  | .json => report.toJson.text ++ "\n"

end Report

end TreeLint
