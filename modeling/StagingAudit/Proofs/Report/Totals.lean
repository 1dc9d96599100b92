import Mathlib.Algebra.GroupWithZero.Nat
import StagingAudit.Proofs.Report.Counts
import StagingAudit.Proofs.Report.Summary

/-!
# Totals

The counts of a run are kept while its reports are gone over once: each report adds to one of three
outcomes and brings its errors and warnings along, and the total is the length of the list
(`foldl_count`). The counts by code are kept in a list of their own, and one more code adds one to
their sum (`sum_addCode`). **The two tallies balance** (`summarize_balances`): the outcomes make up
the total, the files that were checked are those that passed or failed, a run has errors when a
file failed, and the counts by code make up the errors and warnings. Nothing is asked of the
reports, so a report on a file that was left out may have findings.
-/

namespace StagingAudit

/-! ## One report after the other -/

namespace Summary

theorem add_def (a b : Summary) :
    a + b = { total := a.total + b.total, passed := a.passed + b.passed,
              failed := a.failed + b.failed, skipped := a.skipped + b.skipped,
              errors := a.errors + b.errors, warnings := a.warnings + b.warnings } := rfl

theorem add_assoc (a b c : Summary) : a + b + c = a + (b + c) := by
  simp only [add_def, Nat.add_assoc]

theorem zero_add (a : Summary) : {} + a = a := by
  simp only [add_def, Nat.zero_add]

/-- The counts with one more report. The total is not kept here, it is known beforehand. -/
def count (s : Summary) (r : Report) : Summary :=
  let outcome :=
    if r.skipped then { s with skipped := s.skipped + 1 }
    else if r.passed then { s with passed := s.passed + 1 }
    else { s with failed := s.failed + 1 }
  { outcome with
    errors := outcome.errors + r.errorCount
    warnings := outcome.warnings + r.warningCount }

/-- The total apart, one more report adds its own counts. -/
theorem count_eq_add (s : Summary) (r : Report) :
    s.count r = s + { ofReport r with total := 0 } := by
  rw [count, ofReport, add_def]
  cases r.skipped with
  | true => rfl
  | false => cases r.passed <;> rfl

/-- The total apart, going over the reports adds the counts of each. -/
theorem foldl_count (s : Summary) (reports : List Report) :
    reports.foldl count s = s + { summarize reports with total := 0 } := by
  induction reports generalizing s with
  | nil => rfl
  | cons r reports ih =>
    rw [List.foldl_cons, ih, count_eq_add, add_assoc]
    rfl

end Summary

theorem summarize_cons (r : Report) (reports : List Report) :
    summarize (r :: reports) = Summary.ofReport r + summarize reports := rfl

theorem total_summarize (reports : List Report) :
    (summarize reports).total = reports.length := by
  induction reports with
  | nil => rfl
  | cons r reports ih =>
    rw [List.length_cons, ← ih, Nat.add_comm]
    rfl

theorem summarize_eq_foldl (reports : List Report) :
    summarize reports = reports.foldl Summary.count { total := reports.length } := by
  rw [Summary.foldl_count, ← total_summarize]
  simp only [Summary.add_def, Nat.zero_add, Nat.add_zero]

/-- The counts of two runs together are the sums of their counts. -/
theorem summarize_append (reports later : List Report) :
    summarize (reports ++ later) = summarize reports + summarize later := by
  induction reports with
  | nil => exact (Summary.zero_add _).symm
  | cons r reports ih =>
    rw [List.cons_append, summarize_cons, summarize_cons, ih, Summary.add_assoc]

/-! ## Outcomes -/

/-- Every file passed, failed or was left out, and no two of these. -/
theorem outcomes_summarize (reports : List Report) :
    (summarize reports).passed + (summarize reports).failed + (summarize reports).skipped =
      (summarize reports).total := by
  induction reports with
  | nil => rfl
  | cons r reports ih =>
    have hone : (Summary.ofReport r).passed + (Summary.ofReport r).failed +
        (Summary.ofReport r).skipped = (Summary.ofReport r).total := by
      rw [Summary.ofReport]
      cases r.skipped with
      | true => rfl
      | false => cases r.passed <;> rfl
    rw [summarize_cons, Summary.add_def]
    dsimp only
    omega

/-! ## Violations -/

theorem warnings_summarize (reports : List Report) :
    (summarize reports).warnings = (reports.flatMap (·.violations)).countP (·.isWarning) := by
  induction reports with
  | nil => rfl
  | cons r reports ih =>
    rw [List.flatMap_cons, List.countP_append, ← ih]
    rfl

/-- A violation is an error or a warning. -/
theorem Violation.isWarning_eq_not (v : Violation) : v.isWarning = !v.isError := by
  rw [isWarning, isError]
  cases v.severity <;> rfl

/-- There are as many codes as there are errors and warnings. -/
theorem length_allCodes (reports : List Report) :
    (allCodes reports).length = (summarize reports).errors + (summarize reports).warnings := by
  rw [allCodes_eq_map, List.length_map, errors_summarize, warnings_summarize,
    List.length_eq_countP_add_countP (·.isError)]
  simp only [Violation.isWarning_eq_not]
  congr 2
  funext v
  cases v.isError <;> rfl

/-- One more code adds one to the counts, whether it is new or not. -/
theorem sum_addCode (counts : List (String × Nat)) (code : String) :
    ((addCode counts code).map (·.2)).sum = (counts.map (·.2)).sum + 1 := by
  induction counts with
  | nil => rfl
  | cons p counts ih =>
    obtain ⟨c, n⟩ := p
    rw [addCode]
    split
    · simp only [List.map_cons, List.sum_cons]
      omega
    · simp only [List.map_cons, List.sum_cons, ih]
      omega

theorem sum_foldl_addCode (codes : List String) (counts : List (String × Nat)) :
    ((codes.foldl addCode counts).map (·.2)).sum = (counts.map (·.2)).sum + codes.length := by
  induction codes generalizing counts with
  | nil => rfl
  | cons code codes ih =>
    rw [List.foldl_cons, ih, sum_addCode, List.length_cons]
    omega

/-- The counts by code make up the number of codes. -/
theorem sum_countsByCode (reports : List Report) :
    ((countsByCode reports).map (·.2)).sum = (allCodes reports).length := by
  have hsorted := (List.mergeSort_perm
    ((allCodes reports).eraseDups.map fun c => (c, (allCodes reports).count c))
    fun a b => b.2 ≤ a.2).map (·.2)
  rw [countsByCode, hsorted.sum_nat, ← foldl_addCode, sum_foldl_addCode]
  simp

/-! ## Balance -/

/-- The counts of a run fit each other and what is said of the run elsewhere. -/
structure Summary.Balances (s : Summary) (reports : List Report) : Prop where
  /-- the outcomes make up the total -/
  outcomes : s.passed + s.failed + s.skipped = s.total
  /-- no more files were left out than there are, so that they can be taken away -/
  skipped_le : s.skipped ≤ s.total
  /-- the files that are left passed or failed -/
  checked : s.checked = s.passed + s.failed
  /-- the run has errors when one of them failed -/
  verdict : hasErrors reports = true ↔ 0 < s.failed
  /-- the counts by code make up the errors and warnings -/
  byCode : ((countsByCode reports).map (·.2)).sum = s.errors + s.warnings

/-- **The counts of a run balance**, for any list of reports. They are what going over the reports
once comes to, and those of two runs together are the sums of their counts, field by field. -/
theorem summarize_balances (reports later : List Report) :
    summarize reports = reports.foldl Summary.count { total := reports.length } ∧
    (summarize reports).Balances reports ∧
    summarize (reports ++ later) =
      { total := (summarize reports).total + (summarize later).total
        passed := (summarize reports).passed + (summarize later).passed
        failed := (summarize reports).failed + (summarize later).failed
        skipped := (summarize reports).skipped + (summarize later).skipped
        errors := (summarize reports).errors + (summarize later).errors
        warnings := (summarize reports).warnings + (summarize later).warnings } := by
  have houtcomes := outcomes_summarize reports
  refine ⟨summarize_eq_foldl reports, ?_, summarize_append reports later⟩
  exact {
    outcomes := houtcomes
    skipped_le := by omega
    checked := by
      rw [Summary.checked]
      omega
    verdict := hasErrors_iff.trans failed_pos_iff.symm
    byCode := by rw [sum_countsByCode, length_allCodes] }

/-- The report on a file that was left out counts as skipped and brings its error along. -/
example :
    let r : Report :=
      { path := "", skipped := true, violations := [⟨"A", "", .error, "", none, none⟩] }
    summarize [r] = { total := 1, skipped := 1, errors := 1 } ∧ countsByCode [r] = [("A", 1)] := by
  decide +kernel

end StagingAudit
