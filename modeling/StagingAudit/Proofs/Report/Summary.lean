import StagingAudit.Proofs.Text.Offset
import StagingAudit.Report.Render

/-!
# Counts and verdicts

A run is judged three times: by the reports that are failures, by the number of files that failed,
and by the number of errors, which is what the last line of the text report goes by. The number of
errors takes in the reports on files that were left out, and the others do not. **The three agree
as long as nothing is reported about a file that was left out** (`errors_pos_iff`).
-/

namespace StagingAudit

/-! ## Reports -/

namespace Report

/-- The report is on a file that was checked and has an error. -/
def IsFailure (r : Report) : Prop := r.skipped = false ∧ ∃ v ∈ r.violations, v.severity = .error

/-- Nothing is reported about a file that was left out. -/
def IsCoherent (r : Report) : Prop := r.skipped = true → r.violations = []

theorem isFailure_iff {r : Report} : r.IsFailure ↔ (!r.skipped && !r.passed) = true := by
  simp [IsFailure, passed, Violation.isError]

/-- In a coherent report every error makes a failure. -/
theorem IsCoherent.isFailure {r : Report} {v : Violation} (h : r.IsCoherent)
    (hv : v ∈ r.violations) (herror : v.severity = .error) : r.IsFailure := by
  refine ⟨?_, v, hv, herror⟩
  rw [← Bool.not_eq_true]
  intro hskipped
  rw [h hskipped] at hv
  cases hv

end Report

/-! ## Counts -/

section Counts

variable {reports : List Report}

theorem failed_summarize (reports : List Report) :
    (summarize reports).failed = reports.countP fun r => !r.skipped && !r.passed := by
  induction reports with
  | nil => rfl
  | cons r reports ih =>
    rw [List.countP_cons, ← ih, Nat.add_comm]
    rfl

theorem errors_summarize (reports : List Report) :
    (summarize reports).errors = (reports.flatMap (·.violations)).countP (·.isError) := by
  induction reports with
  | nil => rfl
  | cons r reports ih =>
    rw [List.flatMap_cons, List.countP_append, ← ih]
    rfl

/-- A run has errors when one of its reports is a failure. -/
theorem hasErrors_iff : hasErrors reports = true ↔ ∃ r ∈ reports, r.IsFailure := by
  simp only [hasErrors, List.any_eq_true, Report.isFailure_iff]

/-- A file failed when one of the reports is a failure. -/
theorem failed_pos_iff : 0 < (summarize reports).failed ↔ ∃ r ∈ reports, r.IsFailure := by
  simp only [failed_summarize, List.countP_pos_iff, Report.isFailure_iff]

/-- **There are errors when one of the reports is a failure**, if the reports are coherent. -/
theorem errors_pos_iff (h : ∀ r ∈ reports, r.IsCoherent) :
    0 < (summarize reports).errors ↔ ∃ r ∈ reports, r.IsFailure := by
  rw [errors_summarize, List.countP_pos_iff]
  simp only [List.mem_flatMap, Violation.isError, beq_iff_eq]
  constructor
  · rintro ⟨v, ⟨r, hr, hv⟩, herror⟩
    exact ⟨r, hr, (h r hr).isFailure hv herror⟩
  · rintro ⟨r, hr, -, v, hv, herror⟩
    exact ⟨v, ⟨r, hr, hv⟩, herror⟩

/-- The report on a file that was left out, with an error in it, is counted and is no failure. -/
example :
    let r : Report :=
      { path := "", skipped := true, violations := [⟨"", "", .error, "", none, none⟩] }
    (summarize [r]).errors = 1 ∧ hasErrors [r] = false := by decide

end Counts

/-! ## The verdict -/

/-- The last line of a text. -/
def lastLine? (text : String) : Option (List Char) := (textLines text.toList).getLast?

/-- The verdict on a run without errors. -/
def passLine (s : Summary) : String := "✓ All " ++ toString s.checked ++ " checked models pass."

/-- The verdict on a run with errors. -/
def failLine (s : Summary) : String :=
  "✗ " ++ toString s.errors ++ " error(s) across " ++ toString s.failed ++
    " file(s). Fix errors before merging."

/-- The verdict on a run. -/
def verdict (s : Summary) : String := if s.errors = 0 then passLine s else failLine s

/-- The two verdicts differ in their first sign. -/
theorem passLine_ne_failLine (s : Summary) : passLine s ≠ failLine s := by
  intro h
  have hhead := congrArg (·.toList.head?) h
  simp only [passLine, failLine, String.toList_append] at hhead
  revert hhead
  exact (by decide : some '✓' ≠ some '✗')

theorem verdict_eq_failLine_iff {s : Summary} : verdict s = failLine s ↔ 0 < s.errors := by
  rw [verdict, Nat.pos_iff_ne_zero]
  split
  · next h => exact iff_of_false (passLine_ne_failLine s) (not_not_intro h)
  · next h => exact iff_of_true rfl h

theorem verdict_eq_passLine_iff {s : Summary} : verdict s = passLine s ↔ s.errors = 0 := by
  rw [verdict]
  split
  · next h => exact iff_of_true rfl h
  · next h => exact iff_of_false (passLine_ne_failLine s).symm h

/-- Numbers stand on one line. -/
theorem newline_not_mem_toString (n : Nat) : '\n' ∉ (toString n).toList := by
  rw [Nat.toString_eq_repr, Nat.toList_repr]
  intro h
  exact absurd (Nat.isDigit_of_mem_toDigits (by decide) (by decide) h) (by decide)

/-- What is put together from texts on one line stands on one line. -/
theorem newline_not_mem_append {a b : String} :
    '\n' ∉ (a ++ b).toList ↔ '\n' ∉ a.toList ∧ '\n' ∉ b.toList := by
  rw [String.toList_append, List.mem_append, not_or]

/-- The verdict stands on one line. -/
theorem newline_not_mem_verdict (s : Summary) : '\n' ∉ (verdict s).toList := by
  rw [verdict]
  split
  · simp only [passLine, newline_not_mem_append]
    exact ⟨⟨by decide, newline_not_mem_toString _⟩, by decide⟩
  · simp only [failLine, newline_not_mem_append]
    exact ⟨⟨⟨⟨by decide, newline_not_mem_toString _⟩, by decide⟩, newline_not_mem_toString _⟩,
      by decide⟩

/-- The verdict ends with a full stop. -/
theorem getLast?_verdict (s : Summary) : (verdict s).toList.getLast? = some '.' := by
  rw [verdict]
  split
  · rw [passLine, String.toList_append, List.getLast?_append]
    rfl
  · rw [failLine, String.toList_append, List.getLast?_append]
    rfl

/-- The text report has an empty line before the verdict. -/
theorem toList_verdictLine (s : Summary) : (verdictLine s).toList = '\n' :: (verdict s).toList := by
  have hpass : "\n✓ All ".toList = '\n' :: "✓ All ".toList := rfl
  have hfail : "\n✗ ".toList = '\n' :: "✗ ".toList := rfl
  rw [verdictLine, verdict]
  split
  · simp only [passLine, String.toList_append, hpass, List.cons_append]
  · simp only [failLine, String.toList_append, hfail, List.cons_append]

/-! ## Rendered reports -/

/-- **The text report ends with the verdict.** -/
theorem lastLine?_renderText (remediation : Bool) (reports : List Report) :
    lastLine? (renderText remediation reports ++ "\n") =
      some (verdict (summarize reports)).toList := by
  have hreturn : (verdict (summarize reports)).toList.getLast? ≠ some '\r' := by
    rw [getLast?_verdict]
    decide
  rw [lastLine?, String.toList_append, renderText, joinLines,
    String.intercalate_append_of_ne_nil (List.cons_ne_nil _ _) (List.cons_ne_nil _ _),
    String.intercalate_singleton, String.toList_append, toList_verdictLine, List.append_assoc,
    List.cons_append]
  exact getLast?_textLines (newline_not_mem_verdict _) hreturn _

/-- Every rendering starts with the name of the program or with a brace. -/
theorem head?_renderReports (format : Format) (remediation : Bool) (reports : List Report) :
    (renderReports format remediation reports).toList.head? ∈ [some 'S', some '\x7b'] := by
  cases format with
  | text =>
    rw [renderReports, renderText, List.cons_append, joinLines]
    unfold headerLine
    simp only [String.append_assoc]
    rw [String.intercalate_cons_append, String.toList_append, List.head?_append]
    exact .head _
  | json =>
    rw [renderReports, renderJson, Json.render, String.toList_ofList, reportsJson, Json.pretty]
    exact .tail _ (.head _)
  | summary =>
    rw [renderReports, renderSummary, List.cons_append, joinLines, String.append_assoc,
      String.intercalate_cons_append, String.toList_append, List.head?_append]
    exact .head _

end StagingAudit
