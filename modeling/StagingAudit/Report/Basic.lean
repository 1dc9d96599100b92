import StagingAudit.Violation

/-!
# Reports

A report holds what was found in one file. The summary of a run counts reports and violations;
every count is a sum over the reports, so **the summary of two runs together is the sum of their
summaries**. `countsByCode` counts violations by their code.
-/

namespace StagingAudit

/-- What was found in one file. -/
structure Report where
  /-- the path as it is shown -/
  path : String
  /-- the violations in the order in which they were found -/
  violations : List Violation := []
  /-- whether the file was left out -/
  skipped : Bool := false
  /-- why it was left out -/
  skipReason : String := ""
  deriving DecidableEq, Repr

namespace Report

/-- Whether there is no error among the violations. -/
def passed (r : Report) : Bool := !r.violations.any (·.isError)

/-- The number of errors. -/
def errorCount (r : Report) : Nat := r.violations.countP (·.isError)

/-- The number of warnings. -/
def warningCount (r : Report) : Nat := r.violations.countP (·.isWarning)

/-- The report on a file that was left out. -/
def leftOut (path reason : String) : Report := { path, skipped := true, skipReason := reason }

end Report

/-! ## Summaries -/

/-- The counts of a run. -/
structure Summary where
  /-- reports -/
  total : Nat := 0
  /-- reports that were checked and have no error -/
  passed : Nat := 0
  /-- reports that were checked and have one -/
  failed : Nat := 0
  /-- reports on files that were left out -/
  skipped : Nat := 0
  /-- errors -/
  errors : Nat := 0
  /-- warnings -/
  warnings : Nat := 0
  deriving DecidableEq, Repr

namespace Summary

/-- The number of files that were checked. -/
def checked (s : Summary) : Nat := s.total - s.skipped

/-- Counts add up field by field. -/
instance : Add Summary :=
  ⟨fun a b =>
    { total := a.total + b.total
      passed := a.passed + b.passed
      failed := a.failed + b.failed
      skipped := a.skipped + b.skipped
      errors := a.errors + b.errors
      warnings := a.warnings + b.warnings }⟩

/-- The counts of a run with one report. -/
def ofReport (r : Report) : Summary :=
  { total := 1
    passed := if !r.skipped && r.passed then 1 else 0
    failed := if !r.skipped && !r.passed then 1 else 0
    skipped := if r.skipped then 1 else 0
    errors := r.errorCount
    warnings := r.warningCount }

end Summary

/-- The counts of a list of reports. -/
def summarize (reports : List Report) : Summary :=
  reports.foldr (fun r s => Summary.ofReport r + s) {}

/-- Whether a file that was checked has an error. -/
def hasErrors (reports : List Report) : Bool := reports.any fun r => !r.skipped && !r.passed

/-- The codes of all violations, in order, with repetitions. -/
def allCodes (reports : List Report) : List String :=
  reports.flatMap fun r => r.violations.map (·.code)

/-- Every code with the number of its violations, the most frequent first. Codes that are equally
frequent come in the order in which they first occur. -/
def countsByCode (reports : List Report) : List (String × Nat) :=
  let codes := allCodes reports
  (codes.eraseDups.map fun c => (c, codes.count c)).mergeSort fun a b => b.2 ≤ a.2

end StagingAudit
