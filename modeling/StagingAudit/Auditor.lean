import StagingAudit.Glob
import StagingAudit.Report.Basic
import StagingAudit.Rule.Battery
import StagingAudit.Settings.Basic

/-!
# Auditors

An auditor is a project root, a list of rules, a list of exclusion patterns and the settings. It
judges one file at a time: a file whose path is excluded is left out, any other is read as a model
and put before every rule that is not turned off.

A `Plan` is an auditor under construction; `Plan.build` settles what was left open.
-/

namespace StagingAudit

/-- A text without any double star. -/
def dropDoubleStars : List Char → List Char
  | '*' :: '*' :: cs => dropDoubleStars cs
  | c :: cs => c :: dropDoubleStars cs
  | [] => []

/-- Whether an exclusion pattern hits a path: it is a glob for the whole path, or what it says
apart from double stars is something and occurs in the path. -/
def patternHits (pattern path : List Char) : Bool :=
  globMatches pattern path ||
    (!(dropDoubleStars pattern).isEmpty && containsText (dropDoubleStars pattern) path)

/-- Judges model files. -/
structure Auditor where
  /-- the project root -/
  root : Path
  /-- the rules in order -/
  rules : List Rule
  /-- the exclusion patterns in order -/
  exclude : List String
  /-- the settings -/
  settings : Settings
  deriving Repr

namespace Auditor

/-- The first exclusion pattern that hits a path. -/
def excludedBy? (a : Auditor) (path : Path) : Option String :=
  a.exclude.find? fun pattern => patternHits pattern.toList path.chars

/-- A path as reports show it: below the root, or as it is. -/
def displayPath (a : Auditor) (path : Path) : String :=
  ((Path.below? a.root path).getD path).display

/-- The report on an excluded file. -/
def skip (a : Auditor) (path : Path) (pattern : String) : Report :=
  .leftOut (a.displayPath path) ("Excluded by pattern: " ++ pattern)

/-- Gives violations the severity that the settings have for their rule, if they have one. -/
def reweigh (severity : Option Severity) (vs : List Violation) : List Violation :=
  match severity with
  | some s => vs.map fun v => { v with severity := s }
  | none => vs

/-- What the rules that are not turned off find in a model. -/
def violations (a : Auditor) (m : Model) : List Violation :=
  (a.rules.filter fun r => a.settings.isEnabled r.id.name).flatMap fun r =>
    reweigh (a.settings.severity? r.id.name) (r.check m)

/-- The report on a text as if it had been read from `path`. -/
def auditText (a : Auditor) (path : Path) (text : List Char) : Report :=
  match a.excludedBy? path with
  | some pattern => a.skip path pattern
  | none =>
    { path := a.displayPath path
      violations := a.violations (Model.ofText a.root path text a.settings.conventions) }

end Auditor

/-! ## Construction -/

/-- An auditor under construction. -/
structure Plan where
  /-- the project root, if one was asked for -/
  root : Option Path := none
  /-- the rules so far -/
  rules : List Rule := []
  /-- the exclusion patterns so far -/
  exclude : List String := []
  /-- the settings, if there are any -/
  settings : Option Settings := none
  deriving Repr

namespace Plan

/-- Adds a rule. -/
def addRule (p : Plan) (r : Rule) : Plan := { p with rules := p.rules ++ [r] }

/-- Adds every rule of the battery. -/
def addBattery (p : Plan) : Plan := { p with rules := p.rules ++ battery }

/-- Adds exclusion patterns. -/
def addExcludes (p : Plan) (patterns : List String) : Plan :=
  { p with exclude := p.exclude ++ patterns }

/-- Settles the plan. The root is the one asked for, else that of the settings, else the current
directory, and is seen from the current directory; the patterns of the settings follow those of
the plan. Without settings the default ones hold, but their patterns are not added. -/
def build (p : Plan) (cwd : Path) : Auditor :=
  let root := (p.root.or (p.settings.map (·.scope.root))).getD (.ofString ".")
  { root := cwd.join root
    rules := p.rules
    exclude := p.exclude ++ ((p.settings.map (·.scope.exclude)).getD [])
    settings := p.settings.getD {} }

end Plan

end StagingAudit
