import StagingAudit.Proofs.Report.Summary
import StagingAudit.Report.Reader

/-!
# The document of a JSON report

`Document.ofJson?` reads the value of a JSON report back, as far as other renderings show it: the
counts and, for each file with an entry, its path, whether it passed and its violations. **The text
report can be written from that document alone** (`renderText_eq_joinLines`).

The two renderings choose their files by different tests. The text leaves out files that were not
checked, files without findings and, unless advice is asked for, files without errors; the JSON
value leaves out files that passed without findings. They meet because nothing is reported about a
file that was left out.
-/

namespace StagingAudit

/-! ## The JSON report read back -/

namespace Json

/-- The member of an object with a given name. -/
def member? (name : String) : Json → Option Json
  | object members => members.lookup name
  | _ => none

/-- The number, if the value is a natural one. -/
def nat? : Json → Option Nat
  | number (.ofNat n) 0 => some n
  | _ => none

theorem array?_map {α β : Type} {f : α → Json} {g : Json → Option β} {k : α → β}
    (h : ∀ a, g (f a) = some (k a)) (xs : List α) :
    array? g (array (xs.map f)) = some (xs.map k) := by
  show (xs.map f).mapM g = some (xs.map k)
  induction xs with
  | nil => rfl
  | cons x xs ih =>
    rw [List.map_cons, List.mapM_cons, h, ih]
    rfl

end Json

/-- The counts of a JSON value. -/
def Summary.ofJson? (j : Json) : Option Summary := do
  return {
    total := ← requiredField Json.nat? (j.member? "total")
    passed := ← requiredField Json.nat? (j.member? "passed")
    failed := ← requiredField Json.nat? (j.member? "failed")
    skipped := ← requiredField Json.nat? (j.member? "skipped")
    errors := ← requiredField Json.nat? (j.member? "errors")
    warnings := ← requiredField Json.nat? (j.member? "warnings") }

/-- The violation of an entry. An entry has the code of a finding and not the name of the rule. -/
def Violation.unnamedOfJson? (j : Json) : Option Violation := do
  return {
    code := ← requiredField Json.string? (j.member? "rule")
    rule := ""
    severity := ← requiredField Severity.ofJson? (j.member? "severity")
    message := ← requiredField Json.string? (j.member? "message")
    line := ← requiredField (Json.nullable? Json.nat?) (j.member? "line")
    remediation := ← requiredField (Json.nullable? Json.string?) (j.member? "remediation") }

/-- A file of the JSON report. -/
structure FileEntry where
  /-- the path as it is shown -/
  path : String
  /-- whether there is no error -/
  passed : Bool
  /-- the violations in order, without the names of their rules -/
  violations : List Violation
  deriving DecidableEq, Repr

/-- The file of a JSON value. -/
def FileEntry.ofJson? (j : Json) : Option FileEntry := do
  return {
    path := ← requiredField Json.string? (j.member? "path")
    passed := ← requiredField Json.bool? (j.member? "passed")
    violations :=
      ← requiredField (Json.array? Violation.unnamedOfJson?) (j.member? "violations") }

/-- A JSON report. -/
structure Document where
  /-- the counts -/
  counts : Summary
  /-- the files that have an entry -/
  files : List FileEntry
  deriving DecidableEq, Repr

/-- The report of a JSON value. -/
def Document.ofJson? (j : Json) : Option Document := do
  return {
    counts := ← requiredField Summary.ofJson? (j.member? "summary")
    files := ← requiredField (Json.array? FileEntry.ofJson?) (j.member? "files") }

theorem Summary.ofJson?_toJson (s : Summary) : Summary.ofJson? s.toJson = some s := rfl

/-- A violation as an entry has it. -/
def Violation.unnamed (v : Violation) : Violation := { v with rule := "" }

theorem Violation.unnamedOfJson?_toJson (v : Violation) :
    Violation.unnamedOfJson? v.toJson = some v.unnamed := by
  have hseverity : Severity.ofJson? (.string v.severity.label) = some v.severity :=
    Severity.ofLabel?_label v.severity
  have hline : Json.nullable? Json.nat? (.ofOption .nat v.line) = some v.line := by
    cases v.line <;> rfl
  have hremediation : Json.nullable? Json.string? (.ofOption .string v.remediation) =
      some v.remediation := by
    cases v.remediation <;> rfl
  simp [unnamedOfJson?, toJson, Json.member?, List.lookup_cons, requiredField, Json.string?,
    unnamed, hseverity, hline, hremediation]

/-- The entry of a report. -/
def Report.entry (r : Report) : FileEntry := ⟨r.path, r.passed, r.violations.map (·.unnamed)⟩

theorem FileEntry.ofJson?_toJson (r : Report) : FileEntry.ofJson? r.toJson = some r.entry := by
  have hviolations := Json.array?_map Violation.unnamedOfJson?_toJson r.violations
  simp [ofJson?, Report.toJson, Json.member?, List.lookup_cons, requiredField, Json.string?,
    Json.bool?, Report.entry, hviolations]

/-- The JSON report on a list of reports. -/
def documentOf (reports : List Report) : Document where
  counts := summarize reports
  files := (reports.filter fun r => !r.passed || !r.violations.isEmpty).map (·.entry)

theorem Document.ofJson?_reportsJson (reports : List Report) :
    Document.ofJson? (reportsJson reports) = some (documentOf reports) := by
  have hfiles := Json.array?_map FileEntry.ofJson?_toJson
    (reports.filter fun r => !r.passed || !r.violations.isEmpty)
  simp [ofJson?, reportsJson, Json.member?, List.lookup_cons, requiredField, Summary.ofJson?_toJson,
    documentOf, hfiles]

/-! ## The text report from the JSON report

The renderer does not keep lines apart in the same way throughout: a heading starts with a line
break of its own, which is the empty line before it. So lines are not compared one by one but as the
text that they make when they are joined (`joinLines_flatMap_append`), and the document is given
lines of which each is one line. -/

/-- What stands before the path of a file in the text report. -/
def FileEntry.mark (e : FileEntry) : String := if e.passed then "WARN: " else "FAIL: "

/-- The lines of a file in the text report. -/
def FileEntry.lines (remediation : Bool) (e : FileEntry) : List String :=
  "" :: (e.mark ++ e.path) ::
    e.violations.flatMap fun v =>
      violationLine v :: if remediation then remediationLines v else []

/-- The files that the text report lists: those with errors, and with advice all of them. -/
def Document.listed (d : Document) (remediation : Bool) : List FileEntry :=
  d.files.filter fun e => remediation || !e.passed

/-- The lines of the text report. -/
def Document.lines (d : Document) (remediation : Bool) : List String :=
  headerLine d.counts :: (d.listed remediation).flatMap (·.lines remediation) ++
    ["", verdict d.counts]

theorem joinLines_append {a b : List String} (ha : a ≠ []) (hb : b ≠ []) :
    joinLines (a ++ b) = joinLines a ++ "\n" ++ joinLines b :=
  String.intercalate_append_of_ne_nil ha hb

theorem joinLines_cons (line : String) {lines : List String} (h : lines ≠ []) :
    joinLines (line :: lines) = line ++ "\n" ++ joinLines lines :=
  String.intercalate_cons_of_ne_nil h

/-- A line break at the start of a line is an empty line before it. -/
theorem joinLines_break (line : String) (lines : List String) :
    joinLines (("\n" ++ line) :: lines) = joinLines ("" :: line :: lines) := by
  rw [joinLines, joinLines, String.intercalate_cons_append, String.intercalate_cons_cons]
  rfl

/-- Groups of lines can be replaced by others that make the same text. -/
theorem joinLines_flatMap_append {α : Type} {f g : α → List String} {a b : List String}
    (h : ∀ x, joinLines (f x) = joinLines (g x)) (hf : ∀ x, f x ≠ []) (hg : ∀ x, g x ≠ [])
    (hend : joinLines a = joinLines b) (ha : a ≠ []) (hb : b ≠ []) (xs : List α) :
    joinLines (xs.flatMap f ++ a) = joinLines (xs.flatMap g ++ b) := by
  induction xs with
  | nil => exact hend
  | cons x xs ih =>
    rw [List.flatMap_cons, List.flatMap_cons, List.append_assoc, List.append_assoc,
      joinLines_append (hf x) (List.append_ne_nil_of_right_ne_nil _ ha),
      joinLines_append (hg x) (List.append_ne_nil_of_right_ne_nil _ hb), h, ih]

/-- An entry's lines are those of its report. -/
theorem joinLines_lines_entry (remediation : Bool) (r : Report) :
    joinLines (r.entry.lines remediation) = joinLines (reportLines remediation r) := by
  have hmark : r.entry.mark = statusWord r ++ ": " := by
    rw [FileEntry.mark, statusWord, Report.entry]
    split <;> rfl
  have hheading : "\n" ++ statusWord r ++ ": " ++ r.path =
      "\n" ++ (r.entry.mark ++ r.entry.path) := by
    rw [hmark]
    simp only [String.append_assoc]
    rfl
  rw [FileEntry.lines, reportLines, hheading, joinLines_break, Report.entry, List.flatMap_map]
  rfl

/-- A coherent report is listed exactly when it has an entry that is. -/
theorem isListed_eq {r : Report} (h : r.IsCoherent) (remediation : Bool) :
    isListed remediation r =
      ((!r.passed || !r.violations.isEmpty) && (remediation || !r.passed)) := by
  rw [isListed]
  cases hskipped : r.skipped with
  | true =>
    have hnone := h hskipped
    simp [Report.passed, hnone]
  | false =>
    cases hpassed : r.passed with
    | true => simp
    | false =>
      have hsome : r.violations ≠ [] := by
        intro hnone
        simp [Report.passed, hnone] at hpassed
      simp [hsome]

/-- The files that the text report lists. -/
theorem listed_documentOf {reports : List Report} (h : ∀ r ∈ reports, r.IsCoherent)
    (remediation : Bool) :
    (documentOf reports).listed remediation =
      (reports.filter (isListed remediation)).map (·.entry) := by
  rw [Document.listed, documentOf, List.filter_map, List.filter_filter]
  refine congrArg _ (List.filter_congr fun r hr => ?_)
  rw [isListed_eq (h r hr), Bool.and_comm]
  rfl

/-- **The text report can be written from the JSON report.** -/
theorem renderText_eq_joinLines {reports : List Report} (h : ∀ r ∈ reports, r.IsCoherent)
    (remediation : Bool) :
    renderText remediation reports = joinLines ((documentOf reports).lines remediation) := by
  have hverdict : verdictLine (summarize reports) = "\n" ++ verdict (summarize reports) := by
    rw [← String.toList_inj, toList_verdictLine, String.toList_append]
    rfl
  have hend : joinLines [verdictLine (summarize reports)] =
      joinLines ["", verdict (summarize reports)] := by
    rw [hverdict, joinLines_break]
  calc renderText remediation reports
      = headerLine (summarize reports) ++ "\n" ++
          joinLines ((reports.filter (isListed remediation)).flatMap (reportLines remediation) ++
            [verdictLine (summarize reports)]) := joinLines_cons _ (by simp)
    _ = headerLine (summarize reports) ++ "\n" ++
          joinLines ((reports.filter (isListed remediation)).flatMap
            (fun r => r.entry.lines remediation) ++ ["", verdict (summarize reports)]) := by
        rw [joinLines_flatMap_append (fun r => (joinLines_lines_entry remediation r).symm)
          (fun _ => List.cons_ne_nil _ _) (fun _ => List.cons_ne_nil _ _) hend (by simp) (by simp)]
    _ = joinLines ((documentOf reports).lines remediation) := by
        rw [Document.lines, listed_documentOf h, List.flatMap_map]
        exact (joinLines_cons _ (by simp)).symm

end StagingAudit
