import TreeLint.Report.Severity
import TreeLint.Tree.Lookup

/-!
Contract: one reported offense.

Owns:
- locations, and the location that a node records in its field `loc`;
- diagnostics, their one-line form, and the order in which a report lists them.
-/

set_option autoImplicit false

namespace TreeLint

structure Location where
  /-- Counted from one; zero where a node records no position. -/
  line : Nat
  /-- Counted from zero. -/
  column : Nat
  deriving DecidableEq, Repr

namespace Location

/-- The location of what records none. -/
def unknown : Location := ⟨0, 0⟩

/-- The largest line or column that is told apart. -/
def limit : Nat := Nat.pow 2 64 - 1

/-- The coordinate that a value records: a whole number that is not negative. -/
def coordinate? : Option Value → Option Nat
  | some (.number value) => value.toNat?.map fun n => min n limit
  | _ => none

/-- The location of a node: the start that its field `loc` records. Without a line there is none, and a missing
column is zero. -/
def ofNode (tree : Tree) (id : Nat) : Location :=
  let line? := coordinate? (tree.resolve id ["loc", "start", "line"])
  let column? := coordinate? (tree.resolve id ["loc", "start", "column"])
  match line? with
  | some line => ⟨line, column?.getD 0⟩
  | none => unknown

end Location

structure Diagnostic where
  path : String
  location : Location
  severity : Severity
  ruleName : String
  message : String
  deriving DecidableEq, Repr

namespace Diagnostic

def text (diagnostic : Diagnostic) : String :=
  diagnostic.path ++ ":" ++ toString diagnostic.location.line
    ++ ":" ++ toString diagnostic.location.column
    ++ ": " ++ String.singleton diagnostic.severity.letter
    ++ ": " ++ diagnostic.ruleName ++ ": " ++ diagnostic.message

/-- Whether a diagnostic may stand before another: by path, by line and by column. -/
def precedes (first second : Diagnostic) : Bool :=
  match compareOfLessAndEq first.path second.path with
  | .lt => true
  | .gt => false
  | .eq =>
      first.location.line < second.location.line
        || (first.location.line == second.location.line
          && first.location.column ≤ second.location.column)

/-- The diagnostics in the order of a report; those of one place keep their order. -/
def sorted (diagnostics : List Diagnostic) : List Diagnostic :=
  diagnostics.mergeSort precedes

end Diagnostic

end TreeLint
