import StagingAudit.Program.Check
import StagingAudit.Proofs.Rule.Location
import StagingAudit.Proofs.Text.Decoding

/-!
# Lines of files

A file need not be a text, and what is no UTF-8 in it is replaced before it is judged. Lines are
counted in the text that comes of this, and a reader looks for them in the file. Since the lines of
the text are those of the file, decoded one by one, **every line in the report on a file is a line
of its bytes** (`auditFile_lines_on_disk`).
-/

namespace StagingAudit

/-- The line of an offset is one of the lines of the text. -/
theorem lineAt_le_length_splitAt (text : List Char) (offset : Nat) :
    lineAt text offset ≤ (splitAt '\n' text).length := by
  rw [lineAt, length_splitAt]
  exact Nat.succ_le_succ (newlinesBefore_le text offset)

namespace Auditor

variable {a : Auditor} {t : FileTree} {cwd path : Path} {report : Report} {v : Violation}
  {line : Nat}

/-- What is reported of a text with a line has one of its lines. -/
theorem line_mem_of_mem_auditText {text : List Char} (hv : v ∈ (a.auditText path text).violations)
    (hline : v.line = some line) : 1 ≤ line ∧ line ≤ (splitAt '\n' text).length := by
  obtain ⟨id, -, -, hlocated⟩ := exists_of_mem_auditText hv
  obtain ⟨offset, rfl, -⟩ := (hlocated line hline).exists_pointsAt
  exact ⟨Nat.succ_pos _, lineAt_le_length_splitAt text offset⟩

/-- Only of a file that has been read anything is reported with a line. -/
theorem exists_read_of_line (h : a.auditFile t cwd path = .ok report) (hv : v ∈ report.violations)
    (hline : v.line = some line) :
    ∃ bytes, t.read cwd path = .ok bytes ∧ report = a.auditText path (decodeLossy bytes) := by
  rcases cases_of_auditFile h with ⟨pattern, -, rfl⟩ | ⟨-, ⟨bytes, hread, rfl⟩ | ⟨-, rfl⟩⟩
  · cases hv
  · exact ⟨bytes, hread, rfl⟩
  · obtain rfl := List.mem_singleton.1 hv
    cases hline

end Auditor

/-- **Lines are those of the file.** Whatever its bytes, a file has as many line-feed bytes as the
text that it is decoded to has line feeds, and each line of the text is the decoded line of the
file with the same number. So if the report on a file holds a violation with a line, the file has
been read, its text has been judged, and its bytes have a line of that number. -/
theorem auditFile_lines_on_disk (a : Auditor) (t : FileTree) (cwd path : Path) :
    (∀ bytes, (decodeLossy bytes).count '\n' = bytes.count feedByte ∧
      splitAt '\n' (decodeLossy bytes) = (splitAt feedByte bytes).map decodeLossy) ∧
    ∀ report, a.auditFile t cwd path = .ok report →
      ∀ v ∈ report.violations, ∀ line, v.line = some line →
        ∃ bytes segment, t.read cwd path = .ok bytes ∧
          report = a.auditText path (decodeLossy bytes) ∧
          1 ≤ line ∧ (splitAt feedByte bytes)[line - 1]? = some segment := by
  refine ⟨fun bytes => ⟨count_decodeLossy bytes, splitAt_decodeLossy bytes⟩, ?_⟩
  intro report hreport v hv line hline
  obtain ⟨bytes, hread, rfl⟩ := Auditor.exists_read_of_line hreport hv hline
  obtain ⟨hpos, hle⟩ := Auditor.line_mem_of_mem_auditText hv hline
  rw [splitAt_decodeLossy, List.length_map] at hle
  have hlt : line - 1 < (splitAt feedByte bytes).length := by omega
  exact ⟨bytes, _, hread, rfl, hpos, List.getElem?_eq_getElem hlt⟩

/-- A model whose first line ends inside a character, with a call without tags on the second one. -/
def truncatedModel : List UInt8 :=
  encode "-- ".toList ++ [0xE2, 0x82] ++ encode "\n\x7b\x7b config() \x7d\x7d\n".toList

/-- The character that is never finished does not take the line feed along: the call is reported on
the second line of the file. -/
theorem auditFile_lines_truncatedModel :
    let tree := FileTree.directory [("m.sql".toList, .file truncatedModel)]
    ∃ report, bareAuditor.auditFile tree (.ofString "/") (.ofString "/m.sql") = .ok report ∧
      ∃ v ∈ report.violations, v.line = some 2 ∧ v.rule = "tags-missing" ∧
        ∃ bytes segment, tree.read (.ofString "/") (.ofString "/m.sql") = .ok bytes ∧
          report = bareAuditor.auditText (.ofString "/m.sql") (decodeLossy bytes) ∧
          1 ≤ 2 ∧ (splitAt feedByte bytes)[2 - 1]? = some segment := by
  intro tree
  have hread : tree.read (.ofString "/") (.ofString "/m.sql") = .ok truncatedModel := by
    decide +kernel
  have hreport : bareAuditor.auditFile tree (.ofString "/") (.ofString "/m.sql") =
      .ok (bareAuditor.auditText (.ofString "/m.sql") (decodeLossy truncatedModel)) := by
    rw [Auditor.auditFile, hread]
    rfl
  have htags : ∃ v ∈ (bareAuditor.auditText (.ofString "/m.sql")
      (decodeLossy truncatedModel)).violations, v.line = some 2 ∧ v.rule = "tags-missing" := by
    decide +kernel
  obtain ⟨v, hv, hline, hrule⟩ := htags
  exact ⟨_, hreport, v, hv, hline, hrule,
    (auditFile_lines_on_disk bareAuditor tree _ _).2 _ hreport v hv 2 hline⟩

end StagingAudit
