import StagingAudit.Program.Run
import StagingAudit.Proofs.Discovery.Models
import StagingAudit.Proofs.Report.Summary

/-!
# How a check ends

A check ends in one of three ways. Something is in the way, or there is nothing to check
(`World.Fails`); git knows that no model has changed (`World.IsUnchanged`); or there are reports
(`World.Reports`). Each way has its exit codes and its output.

With reports, the exit code goes by the files that were checked and the last line of the text by
the number of errors. An auditor looks into no file that it leaves out, so these agree, and **the
exit code, the counts and the output say the same** (`run_check_agrees`).
-/

namespace StagingAudit

/-! ## The reports of an auditor -/

namespace Auditor

variable {a : Auditor} {t : FileTree} {cwd path : Path}

theorem isCoherent_auditText (a : Auditor) (path : Path) (text : List Char) :
    (a.auditText path text).IsCoherent := by
  rw [auditText]
  split
  · exact fun _ => rfl
  · intro hskipped
    cases hskipped

/-- An auditor looks into no file that it leaves out. -/
theorem isCoherent_auditFile {r : Report} (h : a.auditFile t cwd path = .ok r) :
    r.IsCoherent := by
  rcases cases_of_auditFile h with ⟨pattern, -, rfl⟩ | ⟨-, ⟨bytes, -, rfl⟩ | ⟨-, rfl⟩⟩
  · exact fun _ => rfl
  · exact a.isCoherent_auditText path _
  · intro hskipped
    cases hskipped

theorem isCoherent_auditFiles {paths : List Path} {reports : List Report}
    (h : a.auditFiles t cwd paths = .ok reports) : ∀ r ∈ reports, r.IsCoherent := by
  intro r hr
  obtain ⟨path, -, hpath⟩ := (mem_iff_of_mapM h r).1 hr
  exact isCoherent_auditFile hpath

end Auditor

/-! ## Three ways to end -/

namespace World

/-- The settings can be loaded, and the search for files that they lead to has a result. -/
structure Finds (w : World) (named : Option Path) (args : CheckArguments) (settings : Settings)
    (files : Except SearchFault (Option (List Path))) : Prop where
  /-- the settings of the run -/
  loaded : w.loadSettings (w.settingsSource named args.root) = .ok settings
  /-- what the search comes to -/
  found : (w.find (w.auditor settings args.root) args).files = files

/-- Nothing can be checked. -/
inductive Fails (w : World) (named : Option Path) (args : CheckArguments) : Prop where
  /-- the settings cannot be loaded -/
  | settings {fault : Path × SettingsError}
      (h : w.loadSettings (w.settingsSource named args.root) = .error fault)
  /-- the search ends with a fault -/
  | search {settings : Settings} {fault : SearchFault}
      (h : w.Finds named args settings (.error fault))
  /-- the search finds no file -/
  | noFiles {settings : Settings} (h : w.Finds named args settings (.ok (some [])))
  /-- one of the files cannot be read -/
  | reading {settings : Settings} {files : List Path} {fault : ReadError}
      (h : w.Finds named args settings (.ok (some files)))
      (hread : (w.auditor settings args.root).auditFiles w.tree w.cwd files = .error fault)

/-- Git knows that no model has changed. -/
def IsUnchanged (w : World) (named : Option Path) (args : CheckArguments) : Prop :=
  ∃ settings, w.Finds named args settings (.ok none)

/-- The run finds files and can report on all of them. -/
def Reports (w : World) (named : Option Path) (args : CheckArguments) (reports : List Report) :
    Prop :=
  ∃ settings file files, w.Finds named args settings (.ok (some (file :: files))) ∧
    (w.auditor settings args.root).auditFiles w.tree w.cwd (file :: files) = .ok reports

variable {w : World} {named : Option Path} {args : CheckArguments} {reports : List Report}

/-- Every check ends in one of three ways. -/
theorem fails_or_isUnchanged_or_reports (w : World) (named : Option Path) (args : CheckArguments) :
    w.Fails named args ∨ w.IsUnchanged named args ∨ ∃ reports, w.Reports named args reports := by
  cases hsettings : w.loadSettings (w.settingsSource named args.root) with
  | error fault => exact .inl (.settings hsettings)
  | ok settings =>
    cases hfiles : (w.find (w.auditor settings args.root) args).files with
    | error fault => exact .inl (.search ⟨hsettings, hfiles⟩)
    | ok found =>
      rcases found with _ | _ | ⟨file, files⟩
      · exact .inr (.inl ⟨settings, hsettings, hfiles⟩)
      · exact .inl (.noFiles ⟨hsettings, hfiles⟩)
      · cases hread : (w.auditor settings args.root).auditFiles w.tree w.cwd (file :: files) with
        | error fault => exact .inl (.reading ⟨hsettings, hfiles⟩ hread)
        | ok reports =>
          exact .inr (.inr ⟨reports, settings, file, files, ⟨hsettings, hfiles⟩, hread⟩)

/-- A check that fails exits with two and prints nothing. -/
theorem check_of_fails (h : w.Fails named args) :
    (w.check named args).exit = 2 ∧ (w.check named args).stdout = "" := by
  cases h with
  | settings h => simp only [check, h, and_self]
  | search h => simp only [check, h.loaded, h.found, and_self]
  | noFiles h => simp only [check, h.loaded, h.found, and_self]
  | @reading settings files fault h hread =>
    cases files with
    | nil => cases hread
    | cons file files => simp only [check, h.loaded, h.found, hread, and_self]

/-- What a check says when no model has changed. -/
def unchangedLine : String := "No changed staging models found.\n"

theorem check_of_isUnchanged (h : w.IsUnchanged named args) :
    (w.check named args).exit = 0 ∧ (w.check named args).stdout = unchangedLine := by
  obtain ⟨settings, h⟩ := h
  simp only [check, h.loaded, h.found, unchangedLine, and_self]

/-- A check with reports exits with one if they have errors, and prints them. -/
theorem check_of_reports (h : w.Reports named args reports) :
    (w.check named args).exit = (if hasErrors reports then 1 else 0) ∧
      (w.check named args).stdout =
        renderReports args.format args.remediation reports ++ "\n" := by
  obtain ⟨settings, file, files, h, hread⟩ := h
  simp only [check, h.loaded, h.found, hread, and_self]

/-- Reports of a run are coherent. -/
theorem Reports.isCoherent (h : w.Reports named args reports) : ∀ r ∈ reports, r.IsCoherent := by
  obtain ⟨settings, file, files, -, hread⟩ := h
  exact Auditor.isCoherent_auditFiles hread

end World

/-! ## Agreement -/

/-- What a run leaves behind says about its reports what they say themselves. -/
structure Outcome.AgreesWith (o : Outcome) (args : CheckArguments) (reports : List Report) :
    Prop where
  /-- the reports are printed in the format that was asked for -/
  printed : o.stdout = renderReports args.format args.remediation reports ++ "\n"
  /-- all is well, or a model has an error -/
  exit_le : o.exit ≤ 1
  /-- a file that was checked has an error -/
  failure_iff : o.exit = 1 ↔ ∃ r ∈ reports, r.IsFailure
  /-- files are counted as failed -/
  failed_iff : o.exit = 1 ↔ 0 < (summarize reports).failed
  /-- errors are counted -/
  errors_iff : o.exit = 1 ↔ 0 < (summarize reports).errors
  /-- text ends with a line that says so -/
  failLine_iff : args.format = .text →
    (o.exit = 1 ↔ lastLine? o.stdout = some (failLine (summarize reports)).toList)
  /-- or with one that says the opposite -/
  passLine_iff : args.format = .text →
    (o.exit = 0 ↔ lastLine? o.stdout = some (passLine (summarize reports)).toList)

namespace World

variable {w : World} {named : Option Path} {args : CheckArguments} {reports : List Report}

theorem agreesWith_of_reports (h : w.Reports named args reports) :
    (w.check named args).AgreesWith args reports := by
  obtain ⟨hexit, hprinted⟩ := check_of_reports h
  have hle : (w.check named args).exit ≤ 1 := by
    rw [hexit]
    split <;> decide
  have hfailure : (w.check named args).exit = 1 ↔ ∃ r ∈ reports, r.IsFailure := by
    rw [hexit, ← hasErrors_iff]
    cases hasErrors reports <;> decide
  have herrors : (w.check named args).exit = 1 ↔ 0 < (summarize reports).errors :=
    hfailure.trans (errors_pos_iff h.isCoherent).symm
  have hlast : args.format = .text →
      lastLine? (w.check named args).stdout = some (verdict (summarize reports)).toList := by
    intro hformat
    rw [hprinted, hformat]
    exact lastLine?_renderText args.remediation reports
  refine ⟨hprinted, hle, hfailure, hfailure.trans failed_pos_iff.symm, herrors, ?_, ?_⟩
  · intro hformat
    rw [hlast hformat, Option.some.injEq, String.toList_inj, verdict_eq_failLine_iff, herrors]
  · intro hformat
    rw [hlast hformat, Option.some.injEq, String.toList_inj, verdict_eq_passLine_iff]
    omega

/-- Reports are not taken for the message that no model has changed. -/
theorem renderReports_ne_unchangedLine (format : Format) (remediation : Bool)
    (reports : List Report) :
    renderReports format remediation reports ++ "\n" ≠ unchangedLine := by
  intro h
  have hfirst := congrArg (·.toList.head?) h
  have hunchanged : unchangedLine.toList.head? = some 'N' := by decide
  simp only [String.toList_append, List.head?_append, hunchanged] at hfirst
  have hhead := head?_renderReports format remediation reports
  simp only [List.mem_cons, List.not_mem_nil, or_false] at hhead
  rcases hhead with hhead | hhead
  all_goals
    rw [hhead, Option.some_or] at hfirst
    revert hfirst
    decide

end World

/-- **Exit code, verdict and output agree.** Let arguments ask for a check, in any world. The exit
code is two exactly when nothing is printed, which is when something is in the way or there is no
file to check. When the message that no model has changed is printed, the exit code is zero. In
any other case there are reports, and what is left behind agrees with them. -/
theorem run_check_agrees (w : World) (arguments : List String) (i : Invocation)
    (args : CheckArguments) (hi : Invocation.ofArguments arguments = .ok i)
    (hcheck : i.task = .check args) :
    ∃ o, w.run arguments = .ok o ∧
      (o.exit = 2 ↔ o.stdout = "") ∧
      (o.exit = 2 ↔ w.Fails i.config args) ∧
      (o.stdout = World.unchangedLine → o.exit = 0) ∧
      (o.stdout ≠ "" → o.stdout ≠ World.unchangedLine →
        ∃ reports, w.Reports i.config args reports ∧ o.AgreesWith args reports) := by
  have hrun : w.run arguments = .ok (w.check i.config args) := by
    rw [World.run, hi, Except.map, World.perform, hcheck]
  refine ⟨_, hrun, ?_⟩
  have hprints : World.unchangedLine ≠ "" := by decide
  rcases w.fails_or_isUnchanged_or_reports i.config args with hfails | hunchanged | ⟨reports, h⟩
  · obtain ⟨hexit, hstdout⟩ := World.check_of_fails hfails
    rw [hexit, hstdout]
    exact ⟨by simp, by simpa using hfails, fun h => absurd h.symm hprints, fun h => absurd rfl h⟩
  · obtain ⟨hexit, hstdout⟩ := World.check_of_isUnchanged hunchanged
    have hnot : ¬w.Fails i.config args := by
      intro hfails
      rw [(World.check_of_fails hfails).1] at hexit
      cases hexit
    rw [hexit, hstdout]
    exact ⟨iff_of_false (by decide) hprints, iff_of_false (by decide) hnot, fun _ => rfl,
      fun _ h => absurd rfl h⟩
  · have hagrees := World.agreesWith_of_reports h
    have hexit : (w.check i.config args).exit ≠ 2 := by
      have := hagrees.exit_le
      omega
    have hstdout : (w.check i.config args).stdout ≠ "" := by
      rw [hagrees.printed]
      simp
    have hline : (w.check i.config args).stdout ≠ World.unchangedLine := by
      rw [hagrees.printed]
      exact World.renderReports_ne_unchangedLine _ _ _
    exact ⟨iff_of_false hexit hstdout,
      iff_of_false hexit fun hfails => hexit (World.check_of_fails hfails).1,
      fun h => absurd h hline, fun _ _ => ⟨reports, h, hagrees⟩⟩

/-- Two empty files, one of which is left out. -/
def emptyFiles : World where
  tree := .directory [("m.sql".toList, .file []), ("wiserock_tables.sql".toList, .file [])]
  cwd := .ofString "/"

/-- The other one fails, and everything that is left behind says so. -/
theorem run_check_agrees_emptyFiles :
    ∃ o reports, emptyFiles.run ["check", "m.sql", "wiserock_tables.sql"] = .ok o ∧ o.exit = 1 ∧
      emptyFiles.Reports none
        { paths := [.ofString "m.sql", .ofString "wiserock_tables.sql"] } reports ∧
      (∃ r ∈ reports, r.IsFailure) ∧ 0 < (summarize reports).failed ∧
      0 < (summarize reports).errors ∧
      lastLine? o.stdout = some (failLine (summarize reports)).toList := by
  have hexit : (emptyFiles.run ["check", "m.sql", "wiserock_tables.sql"]).toOption.map (·.exit) =
      some 1 := by decide +kernel
  obtain ⟨o, hrun, htwo, -, hunchanged, hagrees⟩ := run_check_agrees emptyFiles
    ["check", "m.sql", "wiserock_tables.sql"]
    { task := .check { paths := [.ofString "m.sql", .ofString "wiserock_tables.sql"] } } _
    (by rfl) rfl
  rw [hrun] at hexit
  have hone : o.exit = 1 := Option.some.inj hexit
  obtain ⟨reports, hreports, h⟩ := hagrees
    (fun hempty => absurd (hone.symm.trans (htwo.2 hempty)) (by decide))
    (fun hline => absurd (hone.symm.trans (hunchanged hline)) (by decide))
  exact ⟨o, reports, hrun, hone, hreports, h.failure_iff.1 hone, h.failed_iff.1 hone,
    h.errors_iff.1 hone, (h.failLine_iff rfl).1 hone⟩

end StagingAudit
