import StagingAudit.Proofs.Rule.Location

/-!
# What settings say about rules

Settings can turn a rule off and give another severity to its findings. Both are done by the
auditor, around a rule that knows nothing of it: a rule is asked about the model alone, and puts its
own name on everything that it finds. So the same can be done afterwards, by the names on the
violations. **What is said about rules is a filter on the report and a change of severities in it**
(`auditText_eq_applyTo`), and nothing else in the report depends on it.
-/

namespace StagingAudit

namespace Settings

/-- The settings with nothing said about any rule. -/
def withoutRules (s : Settings) : Settings := { s with rules := [] }

/-- A violation at the severity that its rule is given, or at its own when none is. -/
def regrade (s : Settings) (v : Violation) : Violation :=
  { v with severity := (s.severity? v.rule).getD v.severity }

/-- A report without what was found by rules that are turned off, and with all else at the severity
that its rule is given. -/
def applyTo (s : Settings) (r : Report) : Report :=
  { r with violations := (r.violations.filter fun v => s.isEnabled v.rule).map s.regrade }

@[simp]
theorem isEnabled_withoutRules (s : Settings) (rule : String) :
    s.withoutRules.isEnabled rule = true := rfl

@[simp]
theorem severity?_withoutRules (s : Settings) (rule : String) :
    s.withoutRules.severity? rule = none := rfl

end Settings

/-- A rule puts its name on what it finds. -/
theorem Rule.rule_of_mem_check {r : Rule} {m : Model} {v : Violation} (h : v ∈ r.check m) :
    v.rule = r.id.name :=
  (r.id.located_check r.severity m v h).1

namespace Auditor

/-- The severity for a rule's findings can be looked up under the names on them. -/
theorem reweigh_check (s : Settings) (r : Rule) (m : Model) :
    reweigh (s.severity? r.id.name) (r.check m) = (r.check m).map s.regrade := by
  have hregrade : ∀ v ∈ r.check m,
      s.regrade v = { v with severity := (s.severity? r.id.name).getD v.severity } := by
    intro v hv
    rw [Settings.regrade, Rule.rule_of_mem_check hv]
  rw [List.map_congr_left hregrade]
  cases s.severity? r.id.name with
  | some severity => rfl
  | none => exact (List.map_id' _).symm

/-- So can whether the rule runs at all. -/
theorem filter_check (s : Settings) (r : Rule) (m : Model) :
    ((r.check m).filter fun v => s.isEnabled v.rule) =
      if s.isEnabled r.id.name then r.check m else [] := by
  have hsame : ∀ v ∈ r.check m, s.isEnabled v.rule = s.isEnabled r.id.name := by
    intro v hv
    rw [Rule.rule_of_mem_check hv]
  rw [List.filter_congr hsame]
  cases s.isEnabled r.id.name with
  | true => exact List.filter_true _
  | false => exact List.filter_false _

/-- The auditor with nothing said about rules. -/
def withoutRuleSettings (a : Auditor) : Auditor := { a with settings := a.settings.withoutRules }

variable (a : Auditor)

/-- Then every rule runs, and its findings stay as they are. -/
theorem violations_withoutRuleSettings (m : Model) :
    a.withoutRuleSettings.violations m = a.rules.flatMap (·.check m) := by
  simp [violations, withoutRuleSettings, reweigh]

/-- What the rules find under settings is what they find without, filtered and regraded. -/
theorem violations_eq_map_filter (m : Model) :
    a.violations m =
      ((a.withoutRuleSettings.violations m).filter fun v => a.settings.isEnabled v.rule).map
        a.settings.regrade := by
  rw [violations_withoutRuleSettings, violations]
  -- each rule is dropped whole or kept whole
  induction a.rules with
  | nil => rfl
  | cons r rules ih =>
    rw [List.flatMap_cons, List.filter_append, List.map_append, ← ih, filter_check,
      List.filter_cons]
    cases a.settings.isEnabled r.id.name with
    | true =>
      rw [if_pos rfl, if_pos rfl, List.flatMap_cons, reweigh_check]
    | false => rfl

/-- Which files are left out does not depend on what is said about rules. -/
theorem excludedBy?_withoutRuleSettings (path : Path) :
    a.withoutRuleSettings.excludedBy? path = a.excludedBy? path := rfl

/-- A report is the report with nothing said about rules, with what is said applied to it. -/
theorem auditText_eq_withoutRuleSettings (path : Path) (text : List Char) :
    a.auditText path text = a.settings.applyTo (a.withoutRuleSettings.auditText path text) := by
  rw [auditText, auditText, excludedBy?_withoutRuleSettings]
  cases a.excludedBy? path with
  | some pattern => rfl
  | none =>
    dsimp only
    rw [violations_eq_map_filter]
    rfl

end Auditor

/-- **What settings say about rules is a filter and a change of severities.** However an auditor is
planned, with all rules of the battery: its report under settings is its report under the same
settings with nothing said about rules, without the violations whose rule is turned off, and with
each other violation at the severity that its rule is given, if it is given one. The order, and all
else in the report and its violations, is the same. -/
theorem auditText_eq_applyTo (plan : Plan) (s : Settings) (cwd path : Path) (text : List Char) :
    ({ plan with settings := some s }.addBattery.build cwd).auditText path text =
      s.applyTo (({ plan with settings := some s.withoutRules }.addBattery.build cwd).auditText
        path text) :=
  Auditor.auditText_eq_withoutRuleSettings _ path text

end StagingAudit
