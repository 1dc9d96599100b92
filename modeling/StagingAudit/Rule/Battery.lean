import StagingAudit.Rule.Configuration
import StagingAudit.Rule.Structure

/-!
# The battery

Every rule with its usual severity, in the order that fixes the order of violations in a report.
-/

namespace StagingAudit

/-- What a rule finds in a model, reported at the given severity. -/
def RuleId.check : RuleId → Severity → Model → List Violation
  | configBlock => checkConfigBlock
  | materializedView => checkMaterializedView
  | tagsMissing => checkTagsMissing
  | tagsStaging => checkTagsStaging
  | tagsThird => checkTagsThird
  | tagsSource => checkTagsSource
  | blockPresence => checkBlockPresence
  | blockOrder => checkBlockOrder
  | surrogateKey => checkSurrogateKey
  | loadedAt => checkLoadedAt
  | finalExplicitColumns => checkFinalExplicitColumns
  | columnGrouping => checkColumnGrouping
  | finalSelect => checkFinalSelect

/-- What a rule finds in a model. -/
def Rule.check (r : Rule) (m : Model) : List Violation := r.id.check r.severity m

/-- All rules at their usual severities. -/
def battery : List Rule := RuleId.all.map fun id => { id }

end StagingAudit
