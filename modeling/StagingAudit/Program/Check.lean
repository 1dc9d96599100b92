import StagingAudit.Auditor
import StagingAudit.CommandLine
import StagingAudit.Discovery
import StagingAudit.Settings.Source

/-!
# Checking models

The `check` command as a function from what a run can see to what it leaves behind. The settings
come first, then the files, then the reports; the exit code says whether a model has an error
(one), nothing could be checked (two), or all is well (zero).
-/

namespace StagingAudit

/-- What a run can see. -/
structure World where
  /-- the files -/
  tree : FileTree
  /-- the current directory, an absolute path -/
  cwd : Path
  /-- the directory that is to hold the user's settings, as the environment has it -/
  settingsDir : Option String := none
  /-- the home directory, as the environment has it -/
  home : Option String := none
  /-- git, if there is one -/
  git : Option Git := none
  /-- whether git can be started, each time that it is to compare with a base revision -/
  startsGit : String → Bool := fun _ => true

/-- What a run leaves behind. -/
structure Outcome where
  /-- the exit code -/
  exit : Nat := 0
  /-- what it prints -/
  stdout : String := ""
  /-- the messages it logs -/
  stderr : List String := []
  /-- the argument lists with which it started git -/
  gitCalls : List (List String) := []
  /-- the files afterwards -/
  tree : FileTree

/-! ## Single files -/

/-- A model file that is there and cannot be read. -/
structure ReadError where
  /-- the file -/
  path : Path
  /-- why it cannot be read -/
  fault : FileFault
  deriving DecidableEq, Repr

/-- The error in words. -/
def ReadError.message (e : ReadError) : String :=
  "Failed to read " ++ e.path.display ++ ": " ++ e.fault.message

namespace Auditor

/-- The report on a file that does not exist. -/
def missing (a : Auditor) (path : Path) : Report :=
  { path := a.displayPath path
    violations :=
      [{ code := "FILE_EXISTS"
         rule := "file-exists"
         severity := .error
         message := "File not found: " ++ a.displayPath path }] }

/-- The report on a file. An excluded file is not looked at; a missing one has a violation; bytes
that are no UTF-8 are replaced. -/
def auditFile (a : Auditor) (t : FileTree) (cwd path : Path) : Except ReadError Report :=
  match a.excludedBy? path with
  | some pattern => .ok (a.skip path pattern)
  | none =>
    match t.read cwd path with
    | .ok bytes => .ok (a.auditText path (decodeLossy bytes))
    | .error .notFound => .ok (a.missing path)
    | .error fault => .error ⟨path, fault⟩

/-- A report on a file is that on an excluded file, on the text that was read, or on no file. -/
theorem cases_of_auditFile {a : Auditor} {t : FileTree} {cwd path : Path} {r : Report}
    (h : a.auditFile t cwd path = .ok r) :
    (∃ pattern, a.excludedBy? path = some pattern ∧ r = a.skip path pattern) ∨
      a.excludedBy? path = none ∧
        ((∃ bytes, t.read cwd path = .ok bytes ∧ r = a.auditText path (decodeLossy bytes)) ∨
          t.read cwd path = .error .notFound ∧ r = a.missing path) := by
  rw [auditFile] at h
  split at h
  · next pattern hexcluded => exact .inl ⟨pattern, hexcluded, (Except.ok.inj h).symm⟩
  · next hincluded =>
    refine .inr ⟨hincluded, ?_⟩
    split at h
    · next bytes hread => exact .inl ⟨bytes, hread, (Except.ok.inj h).symm⟩
    · next hmissing => exact .inr ⟨hmissing, (Except.ok.inj h).symm⟩
    · cases h

/-- The reports on files, in their order; the first file that cannot be read ends the run. -/
def auditFiles (a : Auditor) (t : FileTree) (cwd : Path) (paths : List Path) :
    Except ReadError (List Report) :=
  paths.mapM (a.auditFile t cwd)

end Auditor

/-! ## The command -/

/-- The source of the settings of a run. -/
def World.settingsSource (w : World) (named root : Option Path) : SettingsSource :=
  SettingsSource.resolve w.tree w.cwd ((root.map w.cwd.join).getD w.cwd) named
    (SettingsSource.globalDirectory? w.settingsDir w.home)

/-- Settings whose relative root is seen from the directory of the file that sets it. -/
def anchorRoot (file : Path) (s : Settings) : Settings :=
  match s.scope.root.isAbsolute, file.parent? with
  | false, some dir => { s with scope := { s.scope with root := dir.join s.scope.root } }
  | _, _ => s

/-- The settings of a run. The root of a file that was named or belongs to the project is seen
from that file. -/
def World.loadSettings (w : World) : SettingsSource → Except (Path × SettingsError) Settings
  | .builtIn => .ok {}
  | .global p => (Settings.load w.tree w.cwd p).mapError (p, ·)
  | .explicit p => ((Settings.load w.tree w.cwd p).map (anchorRoot p)).mapError (p, ·)
  | .project p => ((Settings.load w.tree w.cwd p).map (anchorRoot p)).mapError (p, ·)

/-- The auditor of a run. -/
def World.auditor (w : World) (s : Settings) (root : Option Path) : Auditor :=
  (({ root, settings := some s } : Plan).addBattery).build w.cwd

/-- What a search of a run can see. -/
def World.search (w : World) : Search :=
  { tree := w.tree, cwd := w.cwd, own := Ignore.personalRules w.tree w.cwd w.home }

/-- The files of a run, with the messages and the calls of git on the way to them. -/
structure Found where
  /-- the files; none when git knows that none have changed -/
  files : Except SearchFault (Option (List Path))
  /-- messages -/
  messages : List String := []
  /-- calls of git -/
  calls : List (List String) := []

/-- A character as warnings show it: those that steer a terminal are written by their codes. -/
def warningChar (c : Char) : List Char :=
  let n := c.toNat
  if n = 0x07 || n = 0x08 || n = 0x0C || n = 0x1B || n = 0x7F then
    "\\x".toList ++ [Nat.digitChar (n / 16), Nat.digitChar (n % 16)]
  else if 0x80 ≤ n && n ≤ 0x9F then "\\u\x7b".toList ++ Nat.toDigits 16 n ++ ['\x7d']
  else [c]

/-- A warning. -/
def warning (message : String) : String :=
  "WARN " ++ String.ofList (message.toList.flatMap warningChar)

/-- The answer of git for a base revision, unless it cannot be started. -/
def World.askGit (w : World) (base : String) : Option GitAnswer :=
  if w.startsGit base then w.git.map fun answer => answer base else none

/-- Finds the files of a run. -/
def World.find (w : World) (a : Auditor) (args : CheckArguments) : Found :=
  let dirs := a.settings.scope.paths
  if args.changed then
    let changes := Changes.find w.tree w.cwd a.root dirs w.askGit
    match changes.files w.tree w.cwd a.root with
    | some [] => { files := .ok none, calls := changes.calls }
    | some files => { files := .ok (some files), calls := changes.calls }
    | none =>
      { files := (w.search.defaultFiles a.root dirs).map some
        messages := [warning "git not available, falling back to all staging models"]
        calls := changes.calls }
  else if args.paths.isEmpty then { files := (w.search.defaultFiles a.root dirs).map some }
  else
    { files := (w.search.explicitFiles a.root args.paths).map some
      messages := (w.search.missingPaths a.root args.paths).map fun p =>
        warning ("Path not found: " ++ p.display) }

/-- Runs the `check` command. -/
def World.check (w : World) (named : Option Path) (args : CheckArguments) : Outcome :=
  match w.loadSettings (w.settingsSource named args.root) with
  | .error (p, e) =>
    { exit := 2
      stderr := ["Error: Failed to load config: " ++ p.display ++ ": " ++ e.chain]
      tree := w.tree }
  | .ok settings =>
    let a := w.auditor settings args.root
    let found := w.find a args
    match found.files with
    | .error e =>
      { exit := 2
        stderr := found.messages ++ ["Error: " ++ e.message]
        gitCalls := found.calls
        tree := w.tree }
    | .ok none =>
      { stdout := "No changed staging models found.\n"
        stderr := found.messages
        gitCalls := found.calls
        tree := w.tree }
    | .ok (some []) =>
      { exit := 2
        stderr := found.messages ++ ["No staging models found to validate."]
        gitCalls := found.calls
        tree := w.tree }
    | .ok (some files) =>
      match a.auditFiles w.tree w.cwd files with
      | .error e =>
        { exit := 2
          stderr := found.messages ++
            ["Error: Analysis failed: " ++ e.message ++ ": " ++ e.fault.message]
          gitCalls := found.calls
          tree := w.tree }
      | .ok reports =>
        { exit := if hasErrors reports then 1 else 0
          stdout := renderReports args.format args.remediation reports ++ "\n"
          stderr := found.messages
          gitCalls := found.calls
          tree := w.tree }

end StagingAudit
