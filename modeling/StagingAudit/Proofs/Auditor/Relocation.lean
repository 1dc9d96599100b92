import StagingAudit.Auditor
import StagingAudit.Proofs.Path.Joining

/-!
# Projects that are moved

An auditor shows a path below its root, and a model takes its source system from the directories
below the root. Of a path that is joined to the root nothing of the root is left in either, and no
rule looks at the path as it was given. So **a report is the same wherever the project lives**, as
long as no exclusion pattern tells the places apart (`auditText_movedTo`).
-/

namespace StagingAudit

variable {root p : Path}

/-! ## Models -/

/-- A model with another path in place of the one that was given. -/
def Model.givenAs (m : Model) (path : Path) : Model := { m with path }

/-- No rule looks at the path as it was given. -/
theorem RuleId.check_givenAs (id : RuleId) (severity : Severity) (m : Model) (path : Path) :
    id.check severity (m.givenAs path) = id.check severity m := by
  cases id <;> rfl

/-- What is read off a model below an absolute root, its given path apart, is the same below any
other. -/
theorem Model.givenAs_ofText_join {root₁ root₂ : Path} (h₁ : root₁.isAbsolute)
    (h₂ : root₂.isAbsolute) (hp : p.isAbsolute = false) (raw : List Char)
    (conventions : Conventions) :
    (ofText root₁ (root₁.join p) raw conventions).givenAs p =
      (ofText root₂ (root₂.join p) raw conventions).givenAs p := by
  simp only [ofText, givenAs, Path.below?_join h₁ hp, Path.below?_join h₂ hp, Option.getD_some]

/-! ## Auditors -/

namespace Auditor

/-- The auditor with another project root. -/
def movedTo (a : Auditor) (root : Path) : Auditor := { a with root }

variable (a : Auditor)

/-- A file below the root is shown as it is written below it. -/
theorem displayPath_movedTo (h : root.isAbsolute) (hp : p.isAbsolute = false) :
    (a.movedTo root).displayPath (root.join p) = p.trimmed.display := by
  rw [displayPath, movedTo, Path.below?_join h hp, Option.getD_some]

theorem violations_givenAs (m : Model) (path : Path) :
    a.violations (m.givenAs path) = a.violations m := by
  simp only [violations, Rule.check, RuleId.check_givenAs]

theorem violations_movedTo (m : Model) : (a.movedTo root).violations m = a.violations m := rfl

end Auditor

/-- **Reports do not depend on where a project lives.** Let a path be written relative to the root
of a project, in any way. When the project is moved from one absolute root to another and its
auditor with it, the report on the path below the root stays the same, whatever the text, the rules
and the settings are, unless an exclusion pattern hits the path at one place and not at the
other. -/
theorem auditText_movedTo (a : Auditor) {root₁ root₂ p : Path} (text : List Char)
    (h₁ : root₁.isAbsolute) (h₂ : root₂.isAbsolute) (hp : p.isAbsolute = false)
    (hexcluded : (a.movedTo root₁).excludedBy? (root₁.join p) =
      (a.movedTo root₂).excludedBy? (root₂.join p)) :
    (a.movedTo root₁).auditText (root₁.join p) text =
      (a.movedTo root₂).auditText (root₂.join p) text := by
  have hshown : (a.movedTo root₁).displayPath (root₁.join p) =
      (a.movedTo root₂).displayPath (root₂.join p) := by
    rw [a.displayPath_movedTo h₁ hp, a.displayPath_movedTo h₂ hp]
  rw [Auditor.auditText, Auditor.auditText, hexcluded]
  cases (a.movedTo root₂).excludedBy? (root₂.join p) with
  | some pattern =>
    dsimp only
    rw [Auditor.skip, Auditor.skip, hshown]
  | none =>
    have hfound := congrArg a.violations
      (Model.givenAs_ofText_join h₁ h₂ hp text a.settings.conventions)
    rw [Auditor.violations_givenAs, Auditor.violations_givenAs] at hfound
    dsimp only
    rw [hshown, Auditor.violations_movedTo, Auditor.violations_movedTo]
    exact congrArg (Report.mk _ · _ _) hfound

/-- An auditor with all rules that leaves generated tables out. -/
def fullBattery : Auditor :=
  ((Plan.addBattery {}).addExcludes ["**/generated/**"]).build (.ofString "/")

/-- A path to a model, with a step back and idle pieces. -/
def windingPath : Path := .ofString "./models/../models//staging/oda/./stg.sql"

/-- Below a root that ends with a separator and below one that ends with a `.`, the model is shown
alike and is advised to carry the tag of the same source. -/
theorem auditText_movedTo_windingPath :
    ∃ r : Report,
      (fullBattery.movedTo (.ofString "/home//ci/")).auditText
        ((Path.ofString "/home//ci/").join windingPath) [] = r ∧
      (fullBattery.movedTo (.ofString "/srv/.")).auditText
        ((Path.ofString "/srv/.").join windingPath) [] = r ∧
      r.path = "models/../models//staging/oda/./stg.sql" ∧
      r.violations.head?.bind (·.remediation) =
        some ("Add a config block at the top of the file:\n" ++
          "  \x7b\x7b config(materialized='view', tags=['oda', 'staging', 'formentera']) \x7d\x7d") := by
  refine ⟨_, rfl, (auditText_movedTo fullBattery [] ?_ ?_ ?_ ?_).symm, ?_, ?_⟩
  all_goals decide +kernel

end StagingAudit
