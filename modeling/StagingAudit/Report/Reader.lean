import StagingAudit.Conventions
import StagingAudit.Json.Basic
import StagingAudit.Report.Basic

/-!
# Records from JSON

Reports, violations and conventions as they are read from JSON values. A field that may be left
out has a default; any other one has to be there with the right type.
-/

namespace StagingAudit

/-- The severity of a JSON value: its word, or an object with the word as its only member, bound
to nothing. -/
def Severity.ofJson? : Json → Option Severity
  | .string s => Severity.ofLabel? s
  | .object [(s, .null)] => Severity.ofLabel? s
  | _ => none

/-- A field that has to be there. -/
def requiredField {α : Type} (f : Json → Option α) (field : Option Json) : Option α := field.bind f

/-- A field that takes its default when it is left out. -/
def optionalField {α : Type} (default : α) (f : Json → Option α) : Option Json → Option α
  | some j => f j
  | none => some default

/-- The violation of a JSON value. -/
def Violation.ofJson? (j : Json) : Option Violation := do
  match ← j.fields? ["code", "rule", "severity", "message", "line", "remediation"] with
  | [code, rule, severity, message, line, remediation] =>
    return {
      code := ← requiredField Json.string? code
      rule := ← requiredField Json.string? rule
      severity := ← requiredField Severity.ofJson? severity
      message := ← requiredField Json.string? message
      line := ← optionalField none (Json.nullable? Json.word64?) line
      remediation := ← optionalField none (Json.nullable? Json.string?) remediation }
  | _ => none

/-- The report of a JSON value. -/
def Report.ofJson? (j : Json) : Option Report := do
  match ← j.fields? ["path", "violations", "skipped", "skip_reason"] with
  | [path, violations, skipped, skipReason] =>
    return {
      path := ← requiredField Json.string? path
      violations := ← requiredField (Json.array? Violation.ofJson?) violations
      skipped := ← requiredField Json.bool? skipped
      skipReason := ← requiredField Json.string? skipReason }
  | _ => none

/-- A text for each name, from a JSON object. -/
def textMembers? : Json → Option (List (String × String))
  | .object members => members.mapM fun (name, value) => value.string?.map (name, ·)
  | _ => none

/-- The conventions of a JSON value; every field may be left out. -/
def Conventions.ofJson? (j : Json) : Option Conventions := do
  let usual : Conventions := {}
  match ← j.fields?
      ["materialization", "required_tag", "canonical_third_tag", "anchor_dir", "source_tags"] with
  | [materialization, requiredTag, thirdTag, anchorDir, sourceTags] =>
    return {
      materialization := ← optionalField usual.materialization Json.string? materialization
      requiredTag := ← optionalField usual.requiredTag Json.string? requiredTag
      thirdTag := ← optionalField usual.thirdTag Json.string? thirdTag
      anchorDir := ← optionalField usual.anchorDir Json.string? anchorDir
      sourceTags := ← optionalField usual.sourceTags textMembers? sourceTags }
  | _ => none

end StagingAudit
