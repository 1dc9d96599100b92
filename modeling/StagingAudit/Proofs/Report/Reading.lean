import StagingAudit.Proofs.Report.Document

/-!
# Reading a text report

The text report is made for people, who read it line by line. They go by the mark before a path
(`headed`), take the lines up to the next mark together (`sections`), and know a finding by the sign
of its severity (`isFinding`). **Read in this way, the lines of a document are a section for each
file that is listed** (`Document.findingsByHeading_lines`), and the marks tell the files that failed
from those with warnings only.
-/

namespace StagingAudit

/-! ## Headings

No other line of the report starts with a letter of a mark: findings and advice are indented, the
counts start with another letter and the verdict with a sign. So whatever the paths and messages
are, a line that is made for something else is never taken for a heading, and only a line that
starts inside of a path or a message can be. -/

/-- What stands behind the start of a line, if it has this start. -/
def behind? (start line : String) : Option String :=
  (Recogniser.literal start.toList line.toList).map String.ofList

/-- The paths behind a mark, in lines of a text report. -/
def headed (mark : String) (lines : List String) : List String := lines.filterMap (behind? mark)

/-- The marks of files with and without errors. -/
def marks : List String := ["FAIL: ", "WARN: "]

/-- Whether a line heads the findings of a file. -/
def isHeading (line : String) : Bool := marks.any fun mark => (behind? mark line).isSome

theorem FileEntry.mark_mem (e : FileEntry) : e.mark ∈ marks := by
  rw [FileEntry.mark]
  split
  · exact .tail _ (.head _)
  · exact .head _

/-- The lines of a file's findings. -/
def FileEntry.findingLines (remediation : Bool) (e : FileEntry) : List String :=
  e.violations.flatMap fun v =>
    violationLine v :: if remediation then remediationLines v else []

theorem FileEntry.lines_eq (remediation : Bool) (e : FileEntry) :
    e.lines remediation = "" :: (e.mark ++ e.path) :: e.findingLines remediation := rfl

/-- The first character of a text stands in its first part. -/
theorem head?_toList_append {a : String} {c : Char} (h : a.toList.head? = some c) (b : String) :
    (a ++ b).toList.head? = some c := by
  rw [String.toList_append, List.head?_append, h]
  rfl

section Headings

variable {mark : String}

theorem headed_append (a b : List String) : headed mark (a ++ b) = headed mark a ++ headed mark b :=
  List.filterMap_append

/-- Lines that start with another letter are no headings. -/
theorem headed_eq_nil (hmark : mark ∈ marks) {lines : List String}
    (h : ∀ line ∈ lines, line.toList.head? ∉ [some 'F', some 'W']) : headed mark lines = [] := by
  refine List.filterMap_eq_nil_iff.2 fun line hline => ?_
  have hhead := h line hline
  have hnone : Recogniser.literal mark.toList line.toList = none := by
    cases hchars : line.toList with
    | nil =>
      obtain rfl | rfl : mark = "FAIL: " ∨ mark = "WARN: " := by simpa [marks] using hmark
      all_goals rfl
    | cons c cs =>
      simp only [hchars, List.head?_cons, List.mem_cons, Option.some.injEq, List.not_mem_nil,
        or_false, not_or] at hhead
      obtain rfl | rfl : mark = "FAIL: " ∨ mark = "WARN: " := by simpa [marks] using hmark
      · exact if_neg (Ne.symm hhead.1)
      · exact if_neg (Ne.symm hhead.2)
  rw [behind?, hnone]
  rfl

/-- A heading is headed by its own mark. -/
theorem headed_heading (hmark : mark ∈ marks) (e : FileEntry) :
    headed mark [e.mark ++ e.path] = if e.mark = mark then [e.path] else [] := by
  by_cases heq : e.mark = mark
  · have hrest : Recogniser.literal mark.toList (mark.toList ++ e.path.toList) =
        some e.path.toList := Recogniser.literal_eq_some_iff.2 rfl
    rw [if_pos heq, heq, headed, List.filterMap_cons, behind?, String.toList_append, hrest,
      Option.map_some, String.ofList_toList]
    rfl
  · -- the marks are equally long, so a heading starts with no other mark
    have hnone : Recogniser.literal mark.toList (e.mark ++ e.path).toList = none := by
      cases hliteral : Recogniser.literal mark.toList (e.mark ++ e.path).toList with
      | none => rfl
      | some rest =>
        rw [Recogniser.literal_eq_some_iff, String.toList_append] at hliteral
        have hlength : ∀ m ∈ marks, m.toList.length = 6 := by decide
        have hmarks := List.append_inj_left hliteral
          ((hlength _ e.mark_mem).trans (hlength _ hmark).symm)
        exact absurd (String.toList_inj.1 hmarks) heq
    rw [if_neg heq, headed, List.filterMap_cons, behind?, hnone]
    rfl

/-- Findings stand under the heading of their file. -/
theorem headed_findingLines (hmark : mark ∈ marks) (remediation : Bool) (e : FileEntry) :
    headed mark (e.findingLines remediation) = [] := by
  refine headed_eq_nil hmark fun line hline => ?_
  have hindented : line.toList.head? = some ' ' := by
    obtain ⟨v, -, hline⟩ := List.mem_flatMap.1 hline
    rcases List.mem_cons.1 hline with rfl | hline
    · simp only [violationLine, String.append_assoc]
      exact head?_toList_append rfl _
    · split at hline
      · rw [remediationLines] at hline
        split at hline
        · obtain ⟨l, -, rfl⟩ := List.mem_map.1 hline
          exact head?_toList_append rfl _
        · cases hline
      · cases hline
  rw [hindented]
  decide

/-- Only the heading of a file is headed by a mark. -/
theorem headed_lines (hmark : mark ∈ marks) (remediation : Bool) (e : FileEntry) :
    headed mark (e.lines remediation) = if e.mark = mark then [e.path] else [] := by
  have hempty : headed mark [""] = [] := headed_eq_nil hmark (by decide)
  rw [FileEntry.lines_eq, ← List.singleton_append, headed_append, hempty, List.nil_append,
    ← List.singleton_append, headed_append, headed_heading hmark, headed_findingLines hmark,
    List.append_nil]

theorem headed_headerLine (hmark : mark ∈ marks) (s : Summary) :
    headed mark [headerLine s] = [] := by
  have hhead : (headerLine s).toList.head? = some 'S' := by
    unfold headerLine
    simp only [String.append_assoc]
    exact @head?_toList_append "Staging Validator: " 'S' rfl _
  refine headed_eq_nil hmark (List.forall_mem_singleton.2 ?_)
  rw [hhead]
  decide

theorem headed_verdict (hmark : mark ∈ marks) (s : Summary) :
    headed mark ["", verdict s] = [] := by
  have hpass : (passLine s).toList.head? = some '✓' := by
    simp only [passLine, String.append_assoc]
    exact @head?_toList_append "✓ All " '✓' rfl _
  have hfail : (failLine s).toList.head? = some '✗' := by
    simp only [failLine, String.append_assoc]
    exact @head?_toList_append "✗ " '✗' rfl _
  refine headed_eq_nil hmark (List.forall_mem_cons.2 ⟨by decide, List.forall_mem_singleton.2 ?_⟩)
  rw [verdict]
  split
  · rw [hpass]
    decide
  · rw [hfail]
    decide

/-- The headings of a text report are those of the files it lists. -/
theorem headed_documentLines (hmark : mark ∈ marks) (remediation : Bool) (d : Document) :
    headed mark (d.lines remediation) =
      ((d.listed remediation).filter fun e => e.mark = mark).map (·.path) := by
  have hsections : headed mark ((d.listed remediation).flatMap (·.lines remediation)) =
      ((d.listed remediation).filter fun e => e.mark = mark).map (·.path) := by
    induction d.listed remediation with
    | nil => rfl
    | cons e es ih =>
      rw [List.flatMap_cons, headed_append, headed_lines hmark, ih, List.filter_cons]
      by_cases heq : e.mark = mark
      · simp [heq]
      · simp [heq]
  rw [Document.lines, List.cons_append, ← List.singleton_append, headed_append,
    headed_headerLine hmark, List.nil_append, headed_append, hsections, headed_verdict hmark,
    List.append_nil]

end Headings

/-- Lines that are headed by no mark are no headings. -/
theorem isHeading_eq_false {lines : List String} (h : ∀ mark ∈ marks, headed mark lines = [])
    {line : String} (hline : line ∈ lines) : isHeading line = false := by
  refine List.any_eq_false.2 fun mark hmark => ?_
  rw [List.filterMap_eq_nil_iff.1 (h mark hmark) line hline]
  exact Bool.false_ne_true

theorem isHeading_heading (e : FileEntry) : isHeading (e.mark ++ e.path) = true := by
  have hheaded : headed e.mark [e.mark ++ e.path] = [e.path] := by
    rw [headed_heading e.mark_mem, if_pos rfl]
  refine List.any_eq_true.2 ⟨e.mark, e.mark_mem, ?_⟩
  rw [← Bool.not_eq_false, Option.isSome_eq_false_iff, Option.isNone_iff_eq_none]
  intro hnone
  rw [headed, List.filterMap_cons_none hnone] at hheaded
  cases hheaded

/-- The files that are headed as failures are those that did not pass. -/
theorem Document.headed_fail (d : Document) (remediation : Bool) :
    headed "FAIL: " (d.lines remediation) = (d.files.filter fun e => !e.passed).map (·.path) := by
  rw [headed_documentLines (.head _), Document.listed, List.filter_filter]
  refine congrArg _ (List.filter_congr fun e _ => ?_)
  cases hpassed : e.passed <;> simp [FileEntry.mark, hpassed]

/-- The files that are headed by a warning are those that passed, with advice only. -/
theorem Document.headed_warn (d : Document) (remediation : Bool) :
    headed "WARN: " (d.lines remediation) =
      (d.files.filter fun e => e.passed && remediation).map (·.path) := by
  rw [headed_documentLines (.tail _ (.head _)), Document.listed, List.filter_filter]
  refine congrArg _ (List.filter_congr fun e _ => ?_)
  cases hpassed : e.passed <;> simp [FileEntry.mark, hpassed]

/-! ## Findings -/

/-- Whether a line shows a finding: it starts with the sign of a severity, behind two blanks. -/
def isFinding (line : String) : Bool :=
  ["  ✗ ", "  ⚠ "].any fun start => (behind? start line).isSome

theorem isFinding_violationLine (v : Violation) : isFinding (violationLine v) = true := by
  unfold violationLine
  simp only [String.append_assoc, isFinding, behind?, String.toList_append]
  cases v.severity with
  | warning => rfl
  | error => rfl

theorem isFinding_of_mem_remediationLines {v : Violation} {line : String}
    (h : line ∈ remediationLines v) : isFinding line = false := by
  rw [remediationLines] at h
  split at h
  · obtain ⟨l, -, rfl⟩ := List.mem_map.1 h
    simp only [isFinding, behind?, String.toList_append]
    rfl
  · cases h

/-- A verdict starts with a sign too, and not behind blanks. -/
theorem isFinding_verdict (s : Summary) : isFinding (verdict s) = false := by
  rw [verdict]
  split
  · simp only [passLine, String.append_assoc, isFinding, behind?, String.toList_append]
    rfl
  · simp only [failLine, String.append_assoc, isFinding, behind?, String.toList_append]
    rfl

/-- Those of them that show a finding show the violations. -/
theorem filter_isFinding_findingLines (remediation : Bool) (e : FileEntry) :
    (e.findingLines remediation).filter isFinding = e.violations.map violationLine := by
  have hadvice : ∀ v : Violation,
      (if remediation then remediationLines v else []).filter isFinding = [] := by
    intro v
    split
    · exact List.filter_eq_nil_iff.2 fun l hl => by simp [isFinding_of_mem_remediationLines hl]
    · rfl
  rw [FileEntry.findingLines, List.filter_flatMap, List.map_eq_flatMap]
  refine congrArg (List.flatMap · _) (funext fun v => ?_)
  rw [List.filter_cons_of_pos (isFinding_violationLine v), hadvice]

/-! ## Sections

A section of the text is a heading with what stands under it. Its end is not marked: it ends where
the next heading is, one line after the empty line between two files, and the last one takes in the
verdict. Neither the empty line nor the verdict shows a finding, so the findings of a section are
those of its file. -/

/-- The headings among lines, each with the lines under it, up to the next heading. -/
def sections : List String → List (String × List String)
  | [] => []
  | line :: lines =>
    if isHeading line then (line, lines.takeWhile fun l => !isHeading l) :: sections lines
    else sections lines

/-- The findings under each heading. -/
def findingsByHeading (lines : List String) : List (String × List String) :=
  (sections lines).map fun s => (s.1, s.2.filter isFinding)

theorem sections_append {a : List String} (h : ∀ line ∈ a, isHeading line = false)
    (b : List String) : sections (a ++ b) = sections b := by
  induction a with
  | nil => rfl
  | cons line a ih =>
    rw [List.cons_append, sections, if_neg (by simp [h line (.head _)]),
      ih fun l hl => h l (.tail _ hl)]

theorem isHeading_of_mem_findingLines {remediation : Bool} {e : FileEntry} {line : String}
    (h : line ∈ e.findingLines remediation) : isHeading line = false :=
  isHeading_eq_false (fun _ hmark => headed_findingLines hmark remediation e) h

theorem isHeading_of_mem_verdict {s : Summary} {line : String} (h : line ∈ ["", verdict s]) :
    isHeading line = false :=
  isHeading_eq_false (fun _ hmark => headed_verdict hmark s) h

/-- Up to the next heading there are no findings behind those of a file. -/
theorem filter_takeWhile_lines (remediation : Bool) (es : List FileEntry) (s : Summary) :
    ((es.flatMap (·.lines remediation) ++ ["", verdict s]).takeWhile fun l =>
      !isHeading l).filter isFinding = [] := by
  have hempty : isFinding "" = false := rfl
  cases es with
  | nil =>
    refine List.filter_eq_nil_iff.2 fun line hline => ?_
    have hmem := (List.takeWhile_prefix _).subset hline
    simp only [List.flatMap_nil, List.nil_append, List.mem_cons, List.not_mem_nil, or_false] at hmem
    rcases hmem with rfl | rfl
    · simp [hempty]
    · simp [isFinding_verdict]
  | cons e es =>
    have hfirst : isHeading "" = false := isHeading_of_mem_verdict (s := s) (.head _)
    rw [List.flatMap_cons, FileEntry.lines_eq, List.cons_append, List.cons_append, List.cons_append,
      List.cons_append, List.takeWhile_cons_of_pos (by simp [hfirst]),
      List.takeWhile_cons_of_neg (by simp [isHeading_heading]),
      List.filter_cons_of_neg (by simp [hempty]), List.filter_nil]

/-- The lines of files make a section for each of them. -/
theorem findingsByHeading_flatMap_lines (remediation : Bool) (es : List FileEntry) (s : Summary) :
    findingsByHeading (es.flatMap (·.lines remediation) ++ ["", verdict s]) =
      es.map fun e => (e.mark ++ e.path, e.violations.map violationLine) := by
  induction es with
  | nil =>
    rw [findingsByHeading, ← List.append_nil (_ ++ _), List.flatMap_nil, List.nil_append,
      sections_append fun _ => isHeading_of_mem_verdict]
    rfl
  | cons e es ih =>
    have hunder : ∀ line ∈ e.findingLines remediation, isHeading line = false :=
      fun _ => isHeading_of_mem_findingLines
    have hlines : (e :: es).flatMap (·.lines remediation) ++ ["", verdict s] =
        [""] ++ (e.mark ++ e.path) ::
          (e.findingLines remediation ++ (es.flatMap (·.lines remediation) ++ ["", verdict s])) := by
      simp only [List.flatMap_cons, FileEntry.lines_eq, List.cons_append, List.nil_append,
        List.append_assoc]
    have hfirst : ∀ line ∈ [""], isHeading line = false := by decide
    rw [hlines, findingsByHeading, sections_append hfirst, sections,
      if_pos (isHeading_heading e), sections_append hunder, List.map_cons, List.map_cons,
      List.takeWhile_append_of_pos (by simpa using hunder), List.filter_append,
      filter_isFinding_findingLines, filter_takeWhile_lines, List.append_nil]
    exact congrArg _ ih

/-- The sections of a text report are those of the files it lists. -/
theorem Document.findingsByHeading_lines (d : Document) (remediation : Bool) :
    findingsByHeading (d.lines remediation) =
      (d.listed remediation).map fun e => (e.mark ++ e.path, e.violations.map violationLine) := by
  have hheader : ∀ line ∈ [headerLine d.counts], isHeading line = false :=
    fun _ => isHeading_eq_false fun _ hmark => headed_headerLine hmark d.counts
  rw [Document.lines, List.cons_append, ← List.singleton_append, findingsByHeading,
    sections_append hheader]
  exact findingsByHeading_flatMap_lines remediation _ _

end StagingAudit
