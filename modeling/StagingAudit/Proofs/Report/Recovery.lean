import StagingAudit.Proofs.Json.Rendering
import StagingAudit.Proofs.Report.Document

/-!
# The reports from a JSON report

**The JSON report gives back what it was written from** (`renderJson_recovers`). Its text is one of
exactly one JSON value, and that value holds the counts of the run and, in order, every report with
findings: all its fields, and of its violations everything but the names of their rules, which are
not written.

Two things are not written as they are: an empty reason for leaving a file out is written as none,
and whether a file passed is written beside the violations that decide it.
-/

namespace StagingAudit

/-- A file of the JSON report, with everything that is written about it. -/
structure FileRecord extends FileEntry where
  /-- whether the file was left out -/
  skipped : Bool
  /-- why it was left out, if there is a reason -/
  skipReason : Option String
  deriving DecidableEq, Repr

/-- The whole file of a JSON value. -/
def FileRecord.ofJson? (j : Json) : Option FileRecord := do
  return {
    toFileEntry := ← FileEntry.ofJson? j
    skipped := ← requiredField Json.bool? (j.member? "skipped")
    skipReason := ← requiredField (Json.nullable? Json.string?) (j.member? "skip_reason") }

/-- The counts and the whole files of a JSON report. -/
structure RunRecord where
  /-- the counts -/
  counts : Summary
  /-- the files that have an entry -/
  files : List FileRecord
  deriving DecidableEq, Repr

/-- The run of a JSON value. -/
def RunRecord.ofJson? (j : Json) : Option RunRecord := do
  return {
    counts := ← requiredField Summary.ofJson? (j.member? "summary")
    files := ← requiredField (Json.array? FileRecord.ofJson?) (j.member? "files") }

/-- What is written about a report. -/
def Report.record (r : Report) : FileRecord where
  toFileEntry := r.entry
  skipped := r.skipped
  skipReason := if r.skipReason = "" then none else some r.skipReason

theorem FileRecord.ofJson?_toJson (r : Report) : FileRecord.ofJson? r.toJson = some r.record := by
  have hreason : Json.nullable? Json.string?
      (if r.skipReason = "" then .null else .string r.skipReason) = some r.record.skipReason := by
    rw [Report.record]
    split <;> rfl
  have hskipped : r.toJson.member? "skipped" = some (.bool r.skipped) := rfl
  have hmember : r.toJson.member? "skip_reason" =
      some (if r.skipReason = "" then .null else .string r.skipReason) := rfl
  simp [ofJson?, FileEntry.ofJson?_toJson, hskipped, hmember, requiredField, Json.bool?, hreason]
  rfl

/-- A run as the JSON report has it: its counts and the reports with violations. -/
def runRecord (reports : List Report) : RunRecord where
  counts := summarize reports
  files := (reports.filter fun r => !r.violations.isEmpty).map (·.record)

/-- Only reports without violations are left out of the JSON report. -/
theorem hasEntry_eq (r : Report) :
    (!r.passed || !r.violations.isEmpty) = !r.violations.isEmpty := by
  cases hviolations : r.violations with
  | nil => simp [Report.passed, hviolations]
  | cons v violations => simp

theorem RunRecord.ofJson?_reportsJson (reports : List Report) :
    RunRecord.ofJson? (reportsJson reports) = some (runRecord reports) := by
  have hfiles := Json.array?_map FileRecord.ofJson?_toJson
    (reports.filter fun r => !r.passed || !r.violations.isEmpty)
  simp only [hasEntry_eq] at hfiles
  simp [ofJson?, reportsJson, Json.member?, List.lookup_cons, requiredField, Summary.ofJson?_toJson,
    runRecord, hasEntry_eq, hfiles]

/-- **The JSON report gives back what it was written from.** Whoever reads its text as JSON reads
one value, with the counts and, for the reports with violations, everything that is written. -/
theorem renderJson_recovers (reports : List Report) :
    ∃ j, (∀ k, Json.IsText k (renderJson reports).toList ↔ k = j) ∧
      RunRecord.ofJson? j = some
        { counts := summarize reports
          files := (reports.filter fun r => !r.violations.isEmpty).map fun r =>
            { path := r.path
              passed := r.passed
              violations := r.violations.map fun v => { v with rule := "" }
              skipped := r.skipped
              skipReason := if r.skipReason = "" then none else some r.skipReason } } :=
  ⟨reportsJson reports, fun _ => Json.isText_render_iff, RunRecord.ofJson?_reportsJson reports⟩

end StagingAudit
