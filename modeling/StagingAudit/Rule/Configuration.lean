import StagingAudit.Rule.Basic

/-!
# Rules on the configuration call

Each rule is a function from a severity and a model to the violations it finds, at most one. All
but the first are silent when the model has no closed configuration call.
-/

namespace StagingAudit

namespace RuleId

/-- There is a configuration call. -/
def checkConfigBlock (severity : Severity) (m : Model) : List Violation :=
  match m.configLine with
  | some _ => []
  | none =>
    [configBlock.violation severity "Missing config() block." none
      ("Add a config block at the top of the file:\n  \x7b\x7b config(materialized='" ++
        m.conventions.materialization ++ "', tags=" ++ suggestedTags m ++ ") \x7d\x7d")]

/-- The materialization is the agreed one. A call that does not give one fails as well. -/
def checkMaterializedView (severity : Severity) (m : Model) : List Violation :=
  match m.config with
  | none => []
  | some call =>
    let expected := m.conventions.materialization
    if call.materialization = some expected then []
    else
      [materializedView.violation severity
        ("Staging model must be materialized as '" ++ expected ++ "'.") (some call.line)
        ("Set materialized='" ++ expected ++ "' in config().")]

/-- There are tags. -/
def checkTagsMissing (severity : Severity) (m : Model) : List Violation :=
  match m.config with
  | none => []
  | some call =>
    match call.tags with
    | _ :: _ => []
    | [] =>
      [tagsMissing.violation severity "No tags defined in config()." (some call.line)
        ("Add tags=" ++ suggestedTags m ++ " to config().")]

/-- The required tag is among the tags, when there are any. -/
def checkTagsStaging (severity : Severity) (m : Model) : List Violation :=
  match m.config with
  | none => []
  | some call =>
    let required := m.conventions.requiredTag
    if call.tags.isEmpty ∨ required ∈ call.tags then []
    else
      [tagsStaging.violation severity
        ("Tags " ++ quotedList call.tags ++ " missing '" ++ required ++ "'.") (some call.line)
        ("Include '" ++ required ++ "' in the tags list.")]

/-- The third tag, when there is one, is the agreed one. -/
def checkTagsThird (severity : Severity) (m : Model) : List Violation :=
  match m.config with
  | none => []
  | some call =>
    let expected := m.conventions.thirdTag
    match call.tags with
    | tag :: _ :: third :: _ =>
      if third = expected then []
      else
        [tagsThird.violation severity
          ("Third tag is '" ++ third ++ "', expected '" ++ expected ++ "'. Current tags: " ++
            quotedList call.tags)
          (some call.line)
          ("Use " ++ quotedList [m.sourceName.getD tag, m.conventions.requiredTag, expected] ++
            " for consistency.")]
    | _ => []

/-- The first tag is that of the source directory, when both are known. -/
def checkTagsSource (severity : Severity) (m : Model) : List Violation :=
  match m.config with
  | none => []
  | some call =>
    match call.tags.head?, m.expectedSourceTag with
    | some tag, some expected =>
      if tag = expected then []
      else
        [tagsSource.violation severity
          ("First tag is '" ++ tag ++ "', expected '" ++ expected ++ "' based on directory.")
          (some call.line)
          ("Use '" ++ expected ++ "' as the first tag to match the source directory name.")]
    | _, _ => []

end RuleId

end StagingAudit
