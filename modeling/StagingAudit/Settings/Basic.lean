import StagingAudit.Conventions
import StagingAudit.Path
import StagingAudit.Violation

/-!
# Settings

What a settings file says: where the models are and which to leave out, the project's conventions,
and for each rule whether it runs and how serious its findings are. Everything has a default.
-/

namespace StagingAudit

/-- Where the models are. -/
structure Scope where
  /-- the project root; shown paths are relative to it -/
  root : Path := .ofString "."
  /-- the directories that are searched when no paths are given -/
  paths : List Path := [.ofString "models/operations/staging"]
  /-- substrings of paths, or globs, whose files are left out -/
  exclude : List String := ["wiserock_tables"]
  /-- how many files may be looked at side by side -/
  parallelism : Option Nat := none
  deriving DecidableEq, Repr

/-- What is said about one rule. -/
structure RuleSettings where
  /-- whether the rule runs -/
  enabled : Option Bool := none
  /-- the severity of its findings -/
  severity : Option Severity := none
  deriving DecidableEq, Repr

/-- The settings of a project. -/
structure Settings where
  /-- where the models are -/
  scope : Scope := {}
  /-- what the project agrees on -/
  conventions : Conventions := {}
  /-- rules by name -/
  rules : List (String × RuleSettings) := []
  deriving DecidableEq, Repr

namespace Settings

/-- Whether a rule runs: it does unless it is turned off. -/
def isEnabled (s : Settings) (rule : String) : Bool :=
  ((s.rules.lookup rule).bind (·.enabled)).getD true

/-- The severity that the settings give to a rule's findings. -/
def severity? (s : Settings) (rule : String) : Option Severity :=
  (s.rules.lookup rule).bind (·.severity)

end Settings

end StagingAudit
