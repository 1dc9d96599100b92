/-!
# Violations

What a rule reports: a code, the rule's name, how serious it is, a message, and where known the
line and what to do about it.
-/

namespace StagingAudit

/-- How serious a violation is. Only errors make a file fail. -/
inductive Severity where
  /-- should be looked at -/
  | warning
  /-- has to be fixed -/
  | error
  deriving DecidableEq, Repr

namespace Severity

/-- The word for a severity. -/
def label : Severity → String
  | warning => "warning"
  | error => "error"

/-- The sign for a severity in the text report. -/
def glyph : Severity → String
  | warning => "⚠"
  | error => "✗"

/-- The severity with a given word. -/
def ofLabel? (s : String) : Option Severity :=
  if s = "error" then some error else if s = "warning" then some warning else none

theorem ofLabel?_label (s : Severity) : ofLabel? s.label = some s := by cases s <;> decide

end Severity

/-- One thing a rule found. -/
structure Violation where
  /-- the code of the finding -/
  code : String
  /-- the name of the rule -/
  rule : String
  /-- how serious it is -/
  severity : Severity
  /-- what is wrong -/
  message : String
  /-- the line it is about, from one -/
  line : Option Nat := none
  /-- what to do about it -/
  remediation : Option String := none
  deriving DecidableEq, Repr

namespace Violation

/-- Whether the violation is an error. -/
def isError (v : Violation) : Bool := v.severity == .error

/-- Whether the violation is a warning. -/
def isWarning (v : Violation) : Bool := v.severity == .warning

/-- The place of a violation in its one-line texts, with a blank before it. -/
def location (v : Violation) : String :=
  match v.line with
  | some n => " (line " ++ toString n ++ ")"
  | none => ""

/-- The violation in one line. -/
def display (v : Violation) : String :=
  v.severity.label ++ " [" ++ v.code ++ "]" ++ v.location ++ " " ++ v.message

end Violation

end StagingAudit
