import TreeLint.Proofs.Json.RoundTrip
import TreeLint.Report.Format

/-!
Contract: what the JSON form of a report says.

Owns:
- `ReportDocument`, what a reader of the document takes from it, and its strict decoder: each object must have the
  expected members and no other;
- `Report.Fits`, a report whose counts and places fit 64 bits;
- `Report.decodesTo_render_json`, by which the written form of a report is one document and a line feed, and
  decodes to what was reported.

Does not own: how documents are read, which `TreeLint.Proofs.Json.RoundTrip` owns.
-/

set_option autoImplicit false

namespace TreeLint

/-! ### The decoder -/

namespace Json

def toNat? : Json → Option Nat
  | .number (.whole false n) => some n
  | _ => none

def toText? : Json → Option String
  | .string text => some text
  | _ => none

def toArray? : Json → Option (List Json)
  | .array items => some items
  | _ => none

/-- The values of an object that has these keys and no other, in their order. -/
def values? (keys : List String) : Json → Option (List Json)
  | .object members => if members.map Prod.fst = keys then some (members.map Prod.snd) else none
  | _ => none

end Json

def Severity.ofLetter? : String → Option Severity
  | "I" => some .info
  | "W" => some .warning
  | "E" => some .error
  | "F" => some .fatal
  | _ => none

theorem Severity.ofLetter?_letter (severity : Severity) :
    ofLetter? (String.singleton severity.letter) = some severity := by
  cases severity <;> rfl

def Diagnostic.ofJson? (document : Json) : Option Diagnostic :=
  match document.values? ["path", "line", "column", "severity", "rule_name", "message"] with
  | some [path, line, column, severity, ruleName, message] => do
      return {
        path := ← path.toText?
        location := ⟨← line.toNat?, ← column.toNat?⟩
        severity := ← Severity.ofLetter? (← severity.toText?)
        ruleName := ← ruleName.toText?
        message := ← message.toText? }
  | _ => none

structure ReportDocument where
  filesInspected : Nat
  offenseCount : Nat
  offenses : List Diagnostic
  deriving DecidableEq, Repr

def ReportDocument.ofJson? (document : Json) : Option ReportDocument :=
  match document.values? ["metadata", "offenses"] with
  | some [metadata, offenses] =>
      match metadata.values? ["files_inspected", "offense_count"] with
      | some [filesInspected, offenseCount] => do
          return {
            filesInspected := ← filesInspected.toNat?
            offenseCount := ← offenseCount.toNat?
            offenses := ← (← offenses.toArray?).mapM Diagnostic.ofJson? }
      | _ => none
  | _ => none

/-- The text is one document and a line feed, and the document says this. -/
def DecodesTo (text : String) (content : ReportDocument) : Prop :=
  ∃ written document, text = written ++ "\n" ∧ Json.read? written.toList = some document ∧
    ReportDocument.ofJson? document = some content

theorem DecodesTo.unique {text : String} {first second : ReportDocument} (firstReads : DecodesTo text first)
    (secondReads : DecodesTo text second) : first = second := by
  obtain ⟨written, document, rfl, read, decoded⟩ := firstReads
  obtain ⟨written', document', same, read', decoded'⟩ := secondReads
  obtain rfl : written = written' := by
    have lists := congrArg String.toList same
    rw [String.toList_append, String.toList_append] at lists
    exact String.toList_inj.mp (List.append_cancel_right lists)
  obtain rfl := Option.some.inj (read.symm.trans read')
  exact Option.some.inj (decoded.symm.trans decoded')

/-! ### Reports -/

namespace Report

/-- The counts of a report and the places of its diagnostics fit 64 bits. -/
structure Fits (report : Report) : Prop where
  fileCount : report.fileCount ≤ Location.limit
  offenseCount : report.diagnostics.length ≤ Location.limit
  line : ∀ diagnostic ∈ report.diagnostics, diagnostic.location.line ≤ Location.limit
  column : ∀ diagnostic ∈ report.diagnostics, diagnostic.location.column ≤ Location.limit

theorem exact_jsonCount {room n : Nat} (fits : n ≤ Location.limit) : (jsonCount n).Exact room :=
  .whole ⟨fits, fun negative => absurd negative Bool.false_ne_true⟩

theorem exact_offense {room : Nat} {diagnostic : Diagnostic} (line : diagnostic.location.line ≤ Location.limit)
    (column : diagnostic.location.column ≤ Location.limit) : (offense diagnostic).Exact (room + 1) := by
  refine .object (by simp only [List.map_cons, List.map_nil]; decide) ?_
  simp only [List.forall_mem_cons]
  exact ⟨.string _, exact_jsonCount line, exact_jsonCount column, .string _, .string _, .string _,
    List.forall_mem_nil _⟩

theorem exact_toJson {report : Report} (fits : report.Fits) {room : Nat} : report.toJson.Exact (room + 3) := by
  have exactMetadata : Json.Exact (room + 2) (.object
      [("files_inspected", jsonCount report.fileCount),
        ("offense_count", jsonCount report.diagnostics.length)]) := by
    refine .object (by simp only [List.map_cons, List.map_nil]; decide) ?_
    simp only [List.forall_mem_cons]
    exact ⟨exact_jsonCount fits.fileCount, exact_jsonCount fits.offenseCount, List.forall_mem_nil _⟩
  have exactOffenses : Json.Exact (room + 2) (.array (report.diagnostics.map offense)) := by
    refine .array (List.forall_mem_map.mpr fun diagnostic member => ?_)
    exact exact_offense (fits.line diagnostic member) (fits.column diagnostic member)
  refine .object (by simp only [List.map_cons, List.map_nil]; decide) ?_
  simp only [List.forall_mem_cons]
  exact ⟨exactMetadata, exactOffenses, List.forall_mem_nil _⟩

theorem ofJson?_offense (diagnostic : Diagnostic) : Diagnostic.ofJson? (offense diagnostic) = some diagnostic := by
  simp [Diagnostic.ofJson?, offense, Json.values?, Json.toText?, Json.toNat?, jsonCount,
    Severity.ofLetter?_letter]

theorem mapM_offense (diagnostics : List Diagnostic) :
    diagnostics.mapM (Diagnostic.ofJson? ∘ offense) = some diagnostics := by
  induction diagnostics with
  | nil => rfl
  | cons diagnostic rest inductionHypothesis =>
      rw [List.mapM_cons, inductionHypothesis, Function.comp_apply, ofJson?_offense]
      rfl

theorem ofJson?_toJson (report : Report) :
    ReportDocument.ofJson? report.toJson
      = some ⟨report.fileCount, report.diagnostics.length, report.diagnostics⟩ := by
  simp [ReportDocument.ofJson?, toJson, Json.values?, Json.toArray?, Json.toNat?, jsonCount, mapM_offense]

theorem decodesTo_json {report : Report} (fits : report.Fits) :
    DecodesTo (report.render .json) ⟨report.fileCount, report.diagnostics.length, report.diagnostics⟩ := by
  exact ⟨report.toJson.text, report.toJson, rfl, Json.read?_text (exact_toJson fits), ofJson?_toJson report⟩

/-- The JSON form of a report decodes to its counts and its diagnostics, so reports of different diagnostics are
written differently. -/
theorem decodesTo_render_json (report : Report) (fits : report.Fits) :
    DecodesTo (report.render .json)
        { filesInspected := report.fileCount
          offenseCount := report.diagnostics.length
          offenses := report.diagnostics } ∧
      ∀ other : Report, other.Fits → other.diagnostics ≠ report.diagnostics →
        other.render .json ≠ report.render .json := by
  refine ⟨decodesTo_json fits, fun other otherFits differ same => differ ?_⟩
  have otherDecodes := decodesTo_json otherFits
  rw [same] at otherDecodes
  exact congrArg ReportDocument.offenses (otherDecodes.unique (decodesTo_json fits))

/-- Two diagnostics whose texts hold quotes, backslashes and control characters, one at the last place that is told
apart, in a report on two files. -/
def escapedReport : Report where
  diagnostics :=
    [⟨"a\\b/\"c\".json", ⟨Location.limit, Location.limit⟩, .fatal, "Style/Tab\t", "bell \x07, end\r\n"⟩,
      ⟨"é.json", ⟨0, 0⟩, .info, "", "\x00"⟩]
  fileCount := 2

theorem decodesTo_render_json_escaped :
    escapedReport.Fits ∧
      DecodesTo (escapedReport.render .json)
        { filesInspected := escapedReport.fileCount
          offenseCount := escapedReport.diagnostics.length
          offenses := escapedReport.diagnostics } ∧
      ∀ other : Report, other.Fits → other.diagnostics ≠ escapedReport.diagnostics →
        other.render .json ≠ escapedReport.render .json := by
  have fits : escapedReport.Fits := by
    constructor <;> decide +kernel
  exact ⟨fits, decodesTo_render_json escapedReport fits⟩

end Report

end TreeLint
