import StagingAudit.Proofs.Program.Exit
import StagingAudit.Proofs.Report.Reading
import StagingAudit.Proofs.Rule.Location

/-!
# Renderings agree

The same reports are shown as text, as JSON or as a summary. **What is read off the lines of the
text is what the JSON report says** (`exists_isShownBy`): which files failed, which have warnings
only, what was found in each, and every count.

A reader sees lines, and nothing keeps a path or a message from holding a line feed. Messages quote
the tags that a model declares, so a model can bring a line of its own into the text, which looks
like the heading of a file that does not exist (`not_isShownBy_forgedReports`). The renderings agree
when there is no line feed in what is shown of a finding.
-/

namespace StagingAudit

/-! ## Lines

The code of a finding is one of a few that are known, and a number has digits only. A path and a
message come from outside. -/

/-- The lines of a text. -/
def linesOf (text : String) : List String := (splitAt '\n' text.toList).map String.ofList

/-- Nothing that is shown of a finding holds a line feed: neither the path of the report nor the
message. -/
def Report.IsPlain (r : Report) : Prop :=
  ∀ v ∈ r.violations, '\n' ∉ r.path.toList ∧ '\n' ∉ v.message.toList

theorem newline_not_mem_headerLine (s : Summary) : '\n' ∉ (headerLine s).toList := by
  unfold headerLine
  simp only [newline_not_mem_append, newline_not_mem_toString, not_false_eq_true, and_true]
  decide

theorem newline_not_mem_violationLine {v : Violation} (hcode : '\n' ∉ v.code.toList)
    (hmessage : '\n' ∉ v.message.toList) : '\n' ∉ (violationLine v).toList := by
  have hglyph : '\n' ∉ v.severity.glyph.toList := by
    cases v.severity <;> decide
  have hlocation : '\n' ∉ v.location.toList := by
    rw [Violation.location]
    split
    · simp only [newline_not_mem_append, newline_not_mem_toString, not_false_eq_true, and_true]
      decide
    · decide
  simp only [violationLine, newline_not_mem_append, hglyph, hcode, hlocation, hmessage,
    not_false_eq_true, and_true]
  decide

theorem newline_not_mem_remediationLines {v : Violation} {line : String}
    (h : line ∈ remediationLines v) : '\n' ∉ line.toList := by
  rw [remediationLines] at h
  split at h
  · obtain ⟨l, hl, rfl⟩ := List.mem_map.1 h
    rw [newline_not_mem_append, String.toList_ofList (l := l)]
    exact ⟨by decide, newline_not_mem_textLines hl⟩
  · cases h

theorem newline_not_mem_entryLines {r : Report} (hplain : r.IsPlain)
    (hcodes : ∀ v ∈ r.violations, '\n' ∉ v.code.toList) (hfound : r.violations ≠ [])
    {remediation : Bool} {line : String} (hline : line ∈ r.entry.lines remediation) :
    '\n' ∉ line.toList := by
  rw [FileEntry.lines, List.mem_cons, List.mem_cons, List.mem_flatMap] at hline
  rcases hline with rfl | rfl | ⟨v, hv, hline⟩
  · decide
  · have hmark : '\n' ∉ r.entry.mark.toList :=
      (by decide : ∀ m ∈ marks, '\n' ∉ m.toList) _ r.entry.mark_mem
    obtain ⟨v, hv⟩ := List.exists_mem_of_ne_nil _ hfound
    rw [newline_not_mem_append]
    exact ⟨hmark, (hplain v hv).1⟩
  · obtain ⟨v', hv', rfl⟩ := List.mem_map.1 hv
    rcases List.mem_cons.1 hline with rfl | hline
    · exact newline_not_mem_violationLine (hcodes v' hv') (hplain v' hv').2
    · split at hline
      · exact newline_not_mem_remediationLines hline
      · cases hline

theorem newline_not_mem_lines {reports : List Report} (hplain : ∀ r ∈ reports, r.IsPlain)
    (hcodes : ∀ r ∈ reports, ∀ v ∈ r.violations, '\n' ∉ v.code.toList) (remediation : Bool) :
    ∀ line ∈ (documentOf reports).lines remediation, '\n' ∉ line.toList := by
  intro line hline
  rw [Document.lines, List.cons_append, List.mem_cons, List.mem_append, List.mem_flatMap] at hline
  rcases hline with rfl | ⟨e, he, hline⟩ | hline
  · exact newline_not_mem_headerLine _
  · obtain ⟨r, hr, rfl⟩ := List.mem_map.1 (List.mem_filter.1 he).1
    obtain ⟨hr, hentry⟩ := List.mem_filter.1 hr
    have hfound : r.violations ≠ [] := by
      intro hnone
      simp [Report.passed, hnone] at hentry
    exact newline_not_mem_entryLines (hplain r hr) (hcodes r hr) hfound hline
  · simp only [List.mem_cons, List.not_mem_nil, or_false] at hline
    rcases hline with rfl | rfl
    · decide
    · exact newline_not_mem_verdict _

theorem linesOf_of_not_mem {line : String} (h : '\n' ∉ line.toList) : linesOf line = [line] := by
  rw [linesOf, splitAt_of_not_mem h, List.map_singleton, String.ofList_toList]

/-- A line without a line feed is parted from what it was joined to. -/
theorem linesOf_joinLines_cons {line : String} {lines : List String} (h : '\n' ∉ line.toList)
    (hne : lines ≠ []) : linesOf (joinLines (line :: lines)) = line :: linesOf (joinLines lines) := by
  rw [joinLines_cons line hne, linesOf, String.toList_append, String.toList_append,
    List.append_assoc]
  show (splitAt '\n' (line.toList ++ '\n' :: (joinLines lines).toList)).map String.ofList = _
  rw [splitAt_append, splitAt_of_not_mem h]
  show String.ofList line.toList :: linesOf (joinLines lines) = _
  rw [String.ofList_toList]

/-- Lines are parted again where they were joined. -/
theorem linesOf_joinLines {lines : List String} (hne : lines ≠ [])
    (h : ∀ line ∈ lines, '\n' ∉ line.toList) : linesOf (joinLines lines) = lines := by
  induction lines with
  | nil => exact absurd rfl hne
  | cons line lines ih =>
    have hline := h line (.head _)
    cases lines with
    | nil => exact linesOf_of_not_mem hline
    | cons next later =>
      rw [linesOf_joinLines_cons hline (List.cons_ne_nil _ _),
        ih (List.cons_ne_nil _ _) fun l hl => h l (.tail _ hl)]

/-! ## Agreement -/

/-- A report that an auditor makes on a text or a file. -/
inductive Report.IsAudit : Report → Prop where
  /-- the report on a text -/
  | text (a : Auditor) (path : Path) (text : List Char) : IsAudit (a.auditText path text)
  /-- the report on a file -/
  | file {a : Auditor} {t : FileTree} {cwd path : Path} {r : Report}
      (h : a.auditFile t cwd path = .ok r) : IsAudit r

theorem Report.IsAudit.isCoherent {r : Report} (h : r.IsAudit) : r.IsCoherent := by
  cases h with
  | text a path text => exact a.isCoherent_auditText path text
  | file h => exact Auditor.isCoherent_auditFile h

theorem newline_not_mem_code {a : Auditor} {path : Path} {text : List Char} {v : Violation}
    (h : v ∈ (a.auditText path text).violations) : '\n' ∉ v.code.toList := by
  have hcodes : ∀ id ∈ RuleId.all, ∀ code ∈ id.codes, '\n' ∉ code.toList := by decide +kernel
  obtain ⟨id, -, hcode, -⟩ := exists_of_mem_auditText h
  exact hcodes id id.mem_all _ hcode

/-- The codes in a report are known, and none has a line feed. -/
theorem Report.IsAudit.newline_not_mem_code {r : Report} (h : r.IsAudit) :
    ∀ v ∈ r.violations, '\n' ∉ v.code.toList := by
  intro v hv
  cases h with
  | text a path text => exact StagingAudit.newline_not_mem_code hv
  | file h =>
    rcases Auditor.cases_of_auditFile h with ⟨pattern, -, rfl⟩ | ⟨-, ⟨bytes, -, rfl⟩ | ⟨-, rfl⟩⟩
    · cases hv
    · exact StagingAudit.newline_not_mem_code hv
    · obtain rfl := List.mem_singleton.1 hv
      exact (by decide : '\n' ∉ "FILE_EXISTS".toList)

/-- The lines of the text report on plain reports. -/
theorem linesOf_renderText {reports : List Report} (haudit : ∀ r ∈ reports, r.IsAudit)
    (hplain : ∀ r ∈ reports, r.IsPlain) (remediation : Bool) :
    linesOf (renderText remediation reports) = (documentOf reports).lines remediation := by
  rw [renderText_eq_joinLines fun r hr => (haudit r hr).isCoherent]
  exact linesOf_joinLines (List.cons_ne_nil _ _)
    (newline_not_mem_lines hplain (fun r hr => (haudit r hr).newline_not_mem_code) remediation)

/-- The summary starts with two lines of counts. -/
theorem take_linesOf_renderSummary (reports : List Report) :
    (linesOf (renderSummary reports)).take 2 =
      ["Staging Validator Summary: " ++ toString (summarize reports).checked ++ " models checked",
        "  ✓ " ++ toString (summarize reports).passed ++ " pass  |  ✗ " ++
          toString (summarize reports).failed ++ " fail  |  ⊘ " ++
          toString (summarize reports).skipped ++ " skipped"] := by
  have hchecked : '\n' ∉ ("Staging Validator Summary: " ++ toString (summarize reports).checked ++
      " models checked").toList := by
    simp only [newline_not_mem_append, newline_not_mem_toString, not_false_eq_true, and_true]
    decide
  have hcounts : '\n' ∉ ("  ✓ " ++ toString (summarize reports).passed ++ " pass  |  ✗ " ++
      toString (summarize reports).failed ++ " fail  |  ⊘ " ++
      toString (summarize reports).skipped ++ " skipped").toList := by
    simp only [newline_not_mem_append, newline_not_mem_toString, not_false_eq_true, and_true]
    decide
  unfold renderSummary
  dsimp only [List.cons_append]
  rw [linesOf_joinLines_cons hchecked (List.cons_ne_nil _ _),
    linesOf_joinLines_cons hcounts (List.cons_ne_nil _ _)]
  rfl

/-- A reader of the text report and the summary of some reports, line by line, and a reader of the
JSON report on them are told the same. -/
structure Document.IsShownBy (d : Document) (reports : List Report) : Prop where
  /-- the JSON report is the text of a value that reads as the document -/
  json : renderJson reports = (reportsJson reports).render ∧
    Document.ofJson? (reportsJson reports) = some d
  /-- the first line of the text has the counts of the document -/
  header : ∀ remediation, (linesOf (renderText remediation reports)).head? =
    some ("Staging Validator: " ++ toString d.counts.checked ++ " checked, " ++
      toString d.counts.passed ++ " passed, " ++ toString d.counts.errors ++ " errors, " ++
      toString d.counts.warnings ++ " warnings, " ++ toString d.counts.skipped ++ " skipped")
  /-- so have the first lines of the summary -/
  tally : (linesOf (renderSummary reports)).take 2 =
    ["Staging Validator Summary: " ++ toString d.counts.checked ++ " models checked",
      "  ✓ " ++ toString d.counts.passed ++ " pass  |  ✗ " ++ toString d.counts.failed ++
        " fail  |  ⊘ " ++ toString d.counts.skipped ++ " skipped"]
  /-- files that failed are headed as such, with or without advice -/
  failures : ∀ remediation, headed "FAIL: " (linesOf (renderText remediation reports)) =
    (d.files.filter fun e => !e.passed).map (·.path)
  /-- with advice, files that passed are headed by a warning -/
  warnings : headed "WARN: " (linesOf (renderText true reports)) =
    (d.files.filter (·.passed)).map (·.path)
  /-- without advice none is -/
  terse : headed "WARN: " (linesOf (renderText false reports)) = []
  /-- under each heading stand the violations of the file in order, each on one line -/
  findings : ∀ remediation, findingsByHeading (linesOf (renderText remediation reports)) =
    (d.files.filter fun e => remediation || !e.passed).map fun e =>
      ((if e.passed then "WARN: " else "FAIL: ") ++ e.path,
        e.violations.map fun v =>
          "  " ++ (if v.severity = .error then "✗" else "⚠") ++ " [" ++ v.code ++ "]" ++
            v.line.elim "" (fun n => " (line " ++ toString n ++ ")") ++ " " ++ v.message)

/-- A finding on its line: sign, code, line and message. -/
theorem violationLine_eq (v : Violation) :
    violationLine v = "  " ++ (if v.severity = .error then "✗" else "⚠") ++ " [" ++ v.code ++ "]" ++
      v.line.elim "" (fun n => " (line " ++ toString n ++ ")") ++ " " ++ v.message := by
  rw [violationLine, Violation.location]
  cases v.severity <;> cases v.line <;> rfl

/-- **The renderings of reports agree.** The JSON report on any list of reports that auditors make,
in which no path and no message of a finding holds a line feed, can be read as a document, and the
lines of the text report and of the summary tell the same: the files that failed, those with
warnings only, sign, code, line and message of their violations, and every count. -/
theorem exists_isShownBy {reports : List Report} (haudit : ∀ r ∈ reports, r.IsAudit)
    (hplain : ∀ r ∈ reports, r.IsPlain) : ∃ d : Document, d.IsShownBy reports := by
  refine ⟨documentOf reports, ?_⟩
  exact {
    json := ⟨rfl, Document.ofJson?_reportsJson reports⟩
    header := fun remediation => by
      rw [linesOf_renderText haudit hplain]
      rfl
    tally := take_linesOf_renderSummary reports
    failures := fun remediation => by
      rw [linesOf_renderText haudit hplain, Document.headed_fail]
    warnings := by
      rw [linesOf_renderText haudit hplain, Document.headed_warn]
      simp
    terse := by
      rw [linesOf_renderText haudit hplain, Document.headed_warn]
      simp
    findings := fun remediation => by
      rw [linesOf_renderText haudit hplain, Document.findingsByHeading_lines]
      simp only [← violationLine_eq]
      rfl }

/-- An auditor that warns about calls without a materialization and leaves out old files. -/
def strictAuditor : Auditor where
  root := .ofString "/p"
  rules := [{ id := .configBlock }, { id := .materializedView, severity := .warning }]
  exclude := ["old"]
  settings := {}

/-- The reports on a file that fails, a file with a warning and a file that is left out. -/
def mixedReports : List Report :=
  [strictAuditor.auditText (.ofString "/p/a.sql") "select 1".toList,
    strictAuditor.auditText (.ofString "/p/b.sql") "\x7b\x7b config() \x7d\x7d".toList,
    strictAuditor.auditText (.ofString "/p/old/c.sql") []]

/-- The first is headed as a failure, the second by a warning, and the third nowhere. -/
theorem isShownBy_mixedReports :
    (∀ r ∈ mixedReports, r.IsAudit) ∧ (∀ r ∈ mixedReports, r.IsPlain) ∧
      ∃ d : Document, d.IsShownBy mixedReports ∧
        mixedReports.map (·.skipped) = [false, false, true] ∧
        headed "FAIL: " (linesOf (renderText true mixedReports)) = ["a.sql"] ∧
        headed "WARN: " (linesOf (renderText true mixedReports)) = ["b.sql"] := by
  have haudit : ∀ r ∈ mixedReports, r.IsAudit := by
    simp only [mixedReports, List.forall_mem_cons]
    exact ⟨.text _ _ _, .text _ _ _, .text _ _ _, nofun⟩
  have hplain : ∀ r ∈ mixedReports, r.IsPlain := by
    unfold Report.IsPlain
    decide +kernel
  obtain ⟨d, hd⟩ := exists_isShownBy haudit hplain
  have hfiles : (Document.ofJson? (reportsJson mixedReports)).map (fun d =>
      ((d.files.filter fun e => !e.passed).map (·.path),
        (d.files.filter (·.passed)).map (·.path))) = some (["a.sql"], ["b.sql"]) := by
    decide +kernel
  rw [hd.json.2, Option.map_some, Option.some.injEq, Prod.mk.injEq] at hfiles
  exact ⟨haudit, hplain, d, hd, by decide +kernel, (hd.failures true).trans hfiles.1,
    hd.warnings.trans hfiles.2⟩

/-- An auditor that asks for the tag of staging models. -/
def tagAuditor : Auditor where
  root := .ofString "/p"
  rules := [{ id := .tagsStaging }]
  exclude := []
  settings := {}

/-- The report on a model with a tag that goes over three lines, one of them like a heading. -/
def forgedReports : List Report :=
  [tagAuditor.auditText (.ofString "/p/a.sql")
    "\x7b\x7b config(tags=['oda\n\nFAIL: ghost.sql\n']) \x7d\x7d".toList]

/-- The text has the heading of a file that the JSON report does not have. -/
theorem not_isShownBy_forgedReports :
    (∀ r ∈ forgedReports, r.IsAudit) ∧ ¬∃ d : Document, d.IsShownBy forgedReports := by
  refine ⟨List.forall_mem_singleton.2 (.text _ _ _), ?_⟩
  rintro ⟨d, hd⟩
  have hfiles : (Document.ofJson? (reportsJson forgedReports)).map (fun d =>
      (d.files.filter fun e => !e.passed).map (·.path)) = some ["a.sql"] := by
    decide +kernel
  have htext : headed "FAIL: " (linesOf (renderText true forgedReports)) =
      ["a.sql", "ghost.sql"] := by
    decide +kernel
  rw [hd.json.2, Option.map_some, Option.some.injEq, ← hd.failures true, htext] at hfiles
  revert hfiles
  decide

end StagingAudit
