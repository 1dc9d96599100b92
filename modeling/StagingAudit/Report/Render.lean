import StagingAudit.Json.Writer
import StagingAudit.Report.Basic
import StagingAudit.Text.Lines

/-!
# Rendering

A list of reports as text for people, as JSON for programs, or as a short summary. Each rendering
is one string without a line break at its end.
-/

namespace StagingAudit

/-- The ways to show reports. -/
inductive Format where
  /-- findings by file -/
  | text
  /-- everything, for programs -/
  | json
  /-- counts by rule -/
  | summary
  deriving DecidableEq, Repr

/-- The format with a given name. -/
def Format.ofName? : String → Option Format
  | "text" => some .text
  | "json" => some .json
  | "summary" => some .summary
  | _ => none

/-- Lines as one text. -/
def joinLines (lines : List String) : String := String.intercalate "\n" lines

/-- A text at the right of a field that is at least `width` wide. -/
def padLeft (width : Nat) (s : String) : String :=
  String.ofList (List.replicate (width - s.length) ' ') ++ s

/-- A text at the left of a field that is at least `width` wide. -/
def padRight (width : Nat) (s : String) : String :=
  s ++ String.ofList (List.replicate (width - s.length) ' ')

/-! ## Text -/

/-- The line of a violation under its file. -/
def violationLine (v : Violation) : String :=
  "  " ++ v.severity.glyph ++ " [" ++ v.code ++ "]" ++ v.location ++ " " ++ v.message

/-- What to do about a violation, a line for each line of the advice. -/
def remediationLines (v : Violation) : List String :=
  match v.remediation with
  | some advice => (textLines advice.toList).map fun l => "    → " ++ String.ofList l
  | none => []

/-- The word that heads a file with findings. -/
def statusWord (r : Report) : String := if r.passed then "WARN" else "FAIL"

/-- The lines of a file with findings. -/
def reportLines (remediation : Bool) (r : Report) : List String :=
  ("\n" ++ statusWord r ++ ": " ++ r.path) ::
    r.violations.flatMap fun v =>
      violationLine v :: if remediation then remediationLines v else []

/-- Whether the text report lists a file: it was checked and has findings, and unless advice is
asked for one of them is an error. -/
def isListed (remediation : Bool) (r : Report) : Bool :=
  !r.skipped && !r.violations.isEmpty && (remediation || !r.passed)

/-- The counts at the head of the text report. -/
def headerLine (s : Summary) : String :=
  "Staging Validator: " ++ toString s.checked ++ " checked, " ++ toString s.passed ++ " passed, " ++
    toString s.errors ++ " errors, " ++ toString s.warnings ++ " warnings, " ++
    toString s.skipped ++ " skipped"

/-- The verdict at the end of the text report. -/
def verdictLine (s : Summary) : String :=
  if s.errors = 0 then "\n✓ All " ++ toString s.checked ++ " checked models pass."
  else
    "\n✗ " ++ toString s.errors ++ " error(s) across " ++ toString s.failed ++
      " file(s). Fix errors before merging."

/-- Findings by file between the counts and the verdict. -/
def renderText (remediation : Bool) (reports : List Report) : String :=
  let s := summarize reports
  joinLines (headerLine s ::
    (reports.filter (isListed remediation)).flatMap (reportLines remediation) ++ [verdictLine s])

/-! ## JSON -/

/-- The counts as JSON. -/
def Summary.toJson (s : Summary) : Json :=
  .object [("total", .nat s.total), ("passed", .nat s.passed), ("failed", .nat s.failed),
    ("skipped", .nat s.skipped), ("errors", .nat s.errors), ("warnings", .nat s.warnings)]

/-- A violation as JSON, under its code. -/
def Violation.toJson (v : Violation) : Json :=
  .object [("rule", .string v.code), ("severity", .string v.severity.label),
    ("message", .string v.message), ("line", .ofOption .nat v.line),
    ("remediation", .ofOption .string v.remediation)]

/-- A report as JSON; an empty reason counts as none. -/
def Report.toJson (r : Report) : Json :=
  .object [("path", .string r.path), ("passed", .bool r.passed), ("skipped", .bool r.skipped),
    ("skip_reason", if r.skipReason = "" then .null else .string r.skipReason),
    ("violations", .array (r.violations.map (·.toJson)))]

/-- The counts and every file with findings. -/
def reportsJson (reports : List Report) : Json :=
  .object [("summary", (summarize reports).toJson),
    ("files", .array ((reports.filter fun r => !r.passed || !r.violations.isEmpty).map (·.toJson)))]

/-- The reports as a JSON text. -/
def renderJson (reports : List Report) : String := (reportsJson reports).render

/-! ## Summary -/

/-- The counts and the violations by code. -/
def renderSummary (reports : List Report) : String :=
  let s := summarize reports
  joinLines
    (["Staging Validator Summary: " ++ toString s.checked ++ " models checked",
      "  ✓ " ++ toString s.passed ++ " pass  |  ✗ " ++ toString s.failed ++ " fail  |  ⊘ " ++
        toString s.skipped ++ " skipped",
      "",
      "Violations by rule:"] ++
      (countsByCode reports).map fun (code, n) => "  " ++ padLeft 4 (toString n) ++ "  " ++ code)

/-- The reports in a format; `remediation` asks for advice in the text. -/
def renderReports (format : Format) (remediation : Bool) (reports : List Report) : String :=
  match format with
  | .text => renderText remediation reports
  | .json => renderJson reports
  | .summary => renderSummary reports

end StagingAudit
