import StagingAudit.Model
import StagingAudit.Violation

/-!
# Rules

The thirteen rules by identity: their names, codes, descriptions and usual severities. A `Rule` is
an identity with the severity it reports at; the checks themselves are in `Rule.Configuration` and
`Rule.Structure`, the battery in `Rule.Battery`.
-/

namespace StagingAudit

/-- The rules for staging models. -/
inductive RuleId where
  /-- there is a configuration call -/
  | configBlock
  /-- the materialization is the agreed one -/
  | materializedView
  /-- there are tags -/
  | tagsMissing
  /-- the required tag is among them -/
  | tagsStaging
  /-- the third tag is the agreed one -/
  | tagsThird
  /-- the first tag is that of the source directory -/
  | tagsSource
  /-- the required blocks are there -/
  | blockPresence
  /-- they are in canonical order -/
  | blockOrder
  /-- the enhanced block has a surrogate key -/
  | surrogateKey
  /-- the enhanced block has a load timestamp -/
  | loadedAt
  /-- the final block lists its columns -/
  | finalExplicitColumns
  /-- columns are grouped by comments -/
  | columnGrouping
  /-- the model ends with a plain selection -/
  | finalSelect
  deriving DecidableEq, Repr

namespace RuleId

/-- Every rule, in the order in which rules are evaluated. -/
def all : List RuleId :=
  [configBlock, materializedView, tagsMissing, tagsStaging, tagsThird, tagsSource, blockPresence,
    blockOrder, surrogateKey, loadedAt, finalExplicitColumns, columnGrouping, finalSelect]

/-- The name under which a rule is configured. -/
def name : RuleId → String
  | configBlock => "config-block"
  | materializedView => "materialized-view"
  | tagsMissing => "tags-missing"
  | tagsStaging => "tags-staging"
  | tagsThird => "tags-third"
  | tagsSource => "tags-source"
  | blockPresence => "cte-presence"
  | blockOrder => "cte-order"
  | surrogateKey => "surrogate-key"
  | loadedAt => "loaded-at"
  | finalExplicitColumns => "final-explicit-columns"
  | columnGrouping => "column-grouping"
  | finalSelect => "final-select"

/-- The code of a rule's findings. -/
def code : RuleId → String
  | configBlock => "CONFIG_BLOCK"
  | materializedView => "MATERIALIZED_VIEW"
  | tagsMissing => "TAGS_MISSING"
  | tagsStaging => "TAGS_STAGING"
  | tagsThird => "TAGS_THIRD"
  | tagsSource => "TAGS_SOURCE"
  | blockPresence => "CTE_PATTERN"
  | blockOrder => "CTE_ORDER"
  | surrogateKey => "SURROGATE_KEY"
  | loadedAt => "LOADED_AT"
  | finalExplicitColumns => "FINAL_EXPLICIT_COLUMNS"
  | columnGrouping => "COLUMN_GROUPING"
  | finalSelect => "FINAL_SELECT"

/-- What a rule asks for, in a few words. -/
def description : RuleId → String
  | configBlock => "Requires a \x7b\x7b config(...) \x7d\x7d call"
  | materializedView => "Requires materialized='view' in config()"
  | tagsMissing => "Requires tags in config()"
  | tagsStaging => "Requires the 'staging' tag"
  | tagsThird => "Checks the third tag against the canonical value"
  | tagsSource => "Checks the first tag against the source directory"
  | blockPresence => "Requires the source, renamed, filtered, enhanced and final CTEs"
  | blockOrder => "Requires CTEs in the order source, renamed, filtered, enhanced, final"
  | surrogateKey => "Requires a surrogate key in the enhanced CTE"
  | loadedAt => "Requires _loaded_at in the enhanced CTE"
  | finalExplicitColumns => "Forbids SELECT * in the final CTE"
  | columnGrouping => "Requires column grouping comments"
  | finalSelect => "Requires a terminal 'select * from final'"

/-- The severity of a rule when nothing else is asked for. -/
def defaultSeverity : RuleId → Severity
  | configBlock | materializedView | tagsMissing | tagsStaging | blockPresence | blockOrder
  | finalExplicitColumns => .error
  | tagsThird | tagsSource | surrogateKey | loadedAt | columnGrouping | finalSelect => .warning

/-- The rule with a given name. -/
def ofName? (s : String) : Option RuleId := all.find? (·.name == s)

/-- Every rule is in the list of all rules. -/
theorem mem_all (id : RuleId) : id ∈ all := by cases id <;> decide

/-- A violation found by a rule. -/
def violation (id : RuleId) (severity : Severity) (message : String) (line : Option Nat)
    (remediation : String) : Violation :=
  { code := id.code, rule := id.name, severity, message, line, remediation := some remediation }

end RuleId

/-- A rule as it takes part in a run. -/
structure Rule where
  /-- which rule it is -/
  id : RuleId
  /-- the severity of what it reports -/
  severity : Severity := id.defaultSeverity
  deriving DecidableEq, Repr

/-- A list of names in brackets, each in single quotes. -/
def quotedList (items : List String) : String :=
  "[" ++ String.intercalate ", " (items.map fun s => "'" ++ s ++ "'") ++ "]"

/-- The tags a model in this place should declare, as a list; `source` stands for a source system
that is not known. -/
def suggestedTags (m : Model) : String :=
  quotedList [m.expectedSourceTag.getD "source", m.conventions.requiredTag, m.conventions.thirdTag]

end StagingAudit
