import StagingAudit.FileTree
import StagingAudit.Settings.Reader

/-!
# Where settings come from

A run takes its settings from the file named on the command line; else from the nearest settings
file in the start directory or above it, not beyond the top of the project; else from the user's
own file; else there are the built-in ones.
-/

namespace StagingAudit

/-- Where the settings of a run come from. -/
inductive SettingsSource where
  /-- a file named on the command line -/
  | explicit (path : Path)
  /-- a file of the project -/
  | project (path : Path)
  /-- the user's own file -/
  | global (path : Path)
  /-- no file -/
  | builtIn
  deriving DecidableEq, Repr

namespace SettingsSource

/-- The file to read. -/
def path? : SettingsSource → Option Path
  | explicit p => some p
  | project p => some p
  | global p => some p
  | builtIn => none

/-- The source in words. -/
def display : SettingsSource → String
  | explicit p => p.display ++ " (--config)"
  | project p => p.display ++ " (project)"
  | global p => p.display ++ " (global)"
  | builtIn => "built-in defaults"

/-- The names of a project's settings file, the preferred one first. -/
def projectNames : List Path := [.ofString "staging-lint.toml", .ofString ".staging-lint.toml"]

/-- The file that marks the top of a project. -/
def projectMark : Path := .ofString "dbt_project.yml"

/-- The settings file of a directory. -/
def inDirectory? (t : FileTree) (cwd dir : Path) : Option Path :=
  (projectNames.map dir.join).find? (t.isFile cwd)

/-- The settings file of the first directory that has one, up to the first that is the top of a
project. -/
def nearest? (t : FileTree) (cwd : Path) : List Path → Option Path
  | [] => none
  | dir :: dirs =>
    match inDirectory? t cwd dir with
    | some p => some p
    | none => if t.isFile cwd (dir.join projectMark) then none else nearest? t cwd dirs

/-- The user's settings file, if it exists. -/
def globalFile? (t : FileTree) (cwd : Path) (globalDir : Option Path) : Option Path :=
  match globalDir with
  | none => none
  | some dir =>
    let p := dir.join (.ofString "config.toml")
    if t.isFile cwd p then some p else none

/-- The source of the settings of a run that starts in a directory. -/
def resolve (t : FileTree) (cwd start : Path) (named : Option Path) (globalDir : Option Path) :
    SettingsSource :=
  match named with
  | some p => explicit p
  | none =>
    match nearest? t cwd start.ancestors with
    | some p => project p
    | none =>
      match globalFile? t cwd globalDir with
      | some p => global p
      | none => builtIn

/-- The directory of the user's settings file: the one that is asked for, unless it is empty, or
`.staging-lint` in the home directory. -/
def globalDirectory? (asked home : Option String) : Option Path :=
  match asked.filter (· != "") with
  | some dir => some (.ofString dir)
  | none => home.map fun h => (Path.ofString h).join (.ofString ".staging-lint")

end SettingsSource

/-- Why settings cannot be had. -/
inductive SettingsError where
  /-- the file cannot be read -/
  | unreadable (path : Path) (fault : FileFault)
  /-- the file is no settings file -/
  | invalid (fault : SettingsFault)
  deriving DecidableEq, Repr

/-- An error in words. -/
def SettingsError.message : SettingsError → String
  | unreadable path fault => "Failed to read config file " ++ path.display ++ ": " ++ fault.message
  | invalid fault => "Failed to parse config: " ++ fault.message

/-- The error in words, with what it came from after it. -/
def SettingsError.chain : SettingsError → String
  | unreadable path fault => (unreadable path fault).message ++ ": " ++ fault.message
  | invalid fault => (invalid fault).message

/-- Reads the settings file at a path. -/
def Settings.load (t : FileTree) (cwd p : Path) : Except SettingsError Settings :=
  match t.readText cwd p with
  | .error fault => .error (.unreadable p fault)
  | .ok text =>
    match Settings.parse text with
    | .error fault => .error (.invalid fault)
    | .ok s => .ok s

end StagingAudit
