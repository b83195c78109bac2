import TreeLint.Log.Record
import TreeLint.Text.Blank

/-!
Contract: which records are shown.

Owns: filters, which are lists of directives separated by commas. A directive is a level for everything, or
a level for the areas whose name begins with a given target. Of several directives that apply to a record
the one with the longest target decides, and of two for the same target the later one.
-/

set_option autoImplicit false

namespace TreeLint

/-- The least level that is shown; `none` shows nothing. -/
abbrev LogThreshold := Option LogLevel

/-- The threshold that a word or a digit names, in any case. -/
def logThreshold? (word : String) : Option LogThreshold :=
  match String.ofList (word.toList.map Char.toLower) with
  | "off" | "0" => some none
  | "error" | "1" => some (some .error)
  | "warn" | "2" => some (some .warn)
  | "info" | "3" => some (some .info)
  | "debug" | "4" => some (some .debug)
  | "trace" | "5" => some (some .trace)
  | _ => none

/-- A threshold for the areas whose name begins with a target. -/
structure LogDirective where
  target : String
  threshold : LogThreshold
  deriving DecidableEq, Repr

abbrev LogFilter := List LogDirective

namespace LogFilter

def isTargetCharacter (c : Char) : Bool :=
  Unicode.isWordCharacter c || c == ':' || c == '-'

/-- A span in brackets, which applies to no record, and what follows it. -/
def skipSpan? : List Char → Option (List Char)
  | '[' :: rest =>
      match rest.dropWhile (· != ']') with
      | _ :: after => some after
      | [] => none
  | _ => none

/-- A directive. A target without a level shows everything of its areas. Directives for spans are accepted
and apply to no record. -/
def directive? (text : List Char) : Option (Option LogDirective) :=
  match logThreshold? (String.ofList text) with
  | some threshold => some (some ⟨"", threshold⟩)
  | none =>
      let first := text.takeWhile isTargetCharacter
      let afterTarget := text.dropWhile isTargetCharacter
      let afterSpan := skipSpan? afterTarget
      let rest := afterSpan.getD afterTarget
      let last := if first.isEmpty then rest.takeWhile isTargetCharacter else []
      let rest := if first.isEmpty then rest.dropWhile isTargetCharacter else rest
      if first.isEmpty && afterSpan.isNone then none
      else
        let name := String.ofList (first ++ last)
        let target := if (logThreshold? name).isSome then "" else name
        let threshold? : Option LogThreshold :=
          match rest with
          | [] | ['='] => some (some .trace)
          | '=' :: level => logThreshold? (String.ofList level)
          | _ => none
        threshold?.map fun threshold =>
          if afterSpan.isSome then none else some ⟨target, threshold⟩

/-- The filter that a text denotes, if every directive in it is well formed. A text without directives
shows errors only. -/
def read? (text : String) : Option LogFilter := do
  let parts := (text.splitOn ",").filter (!·.isEmpty)
  let directives ← parts.mapM fun part => directive? part.toList
  if parts.isEmpty then return [⟨"", some .error⟩]
  else return directives.filterMap id

def threshold (filter : LogFilter) (area : LogArea) : LogThreshold :=
  let applying := filter.filter fun directive => directive.target.isPrefixOf area.target
  let best := applying.foldl
    (fun (best : Option LogDirective) directive =>
      match best with
      | some other =>
          if directive.target.length < other.target.length then best else some directive
      | none => some directive)
    none
  best.bind LogDirective.threshold

def shows (filter : LogFilter) (record : LogRecord) : Bool :=
  match filter.threshold record.area with
  | some least => least.rank ≤ record.level.rank
  | none => false

def warnings : LogFilter := [⟨"", some .warn⟩]

def debugging : LogFilter := [⟨"", some .debug⟩]

end LogFilter

end TreeLint
