import StagingAudit.Program.Run

/-!
# The executable

Everything that touches the machine: it takes a picture of the part of the file system that a run
can ask about, hands it to `World.perform`, and prints and writes what comes back. A program that
cannot start others has no git, so `--changed` looks at all models.
-/

namespace StagingAudit.Main

/-- The places that an absolute path passes through, and last the one that it leads to. -/
def placesOf (p : Path) : List Place :=
  p.components.foldl (fun places k =>
    let here := places.getLastD []
    match k with
    | .name n => places ++ [here ++ [n]]
    | .parent => places ++ [here.dropLast]
    | _ => places) [[]]

/-- The text by which the machine is asked about an absolute path. It has no idle steps, so that it
stays short where the path itself would be refused as too long. -/
def machineText (p : Path) : String :=
  (Path.ofPieces (some .root) (p.pieces.filter (!Path.isIdle ·))).display

/-- Adds one file or directory of the machine to the picture, if it is there. -/
def addEntry (t : FileTree) (p : Path) : IO FileTree := do
  let file := (← IO.currentDir) / machineText p
  let places := placesOf p
  if ← file.isDir then return places.foldl FileTree.addDirectory t
  if !(← file.pathExists) then return t
  let bytes ← try IO.FS.readBinFile file catch _ => pure ByteArray.empty
  return (places.dropLast.foldl FileTree.addDirectory t).addFile (places.getLastD []) bytes.toList

/-- Adds the files that the `.git` file of a directory leads to, if there is one. -/
def addLinks (cwd : Path) (t : FileTree) (dir : Path) : IO FileTree := do
  let file := dir.child Ignore.gitName
  let .ok bytes := t.read cwd file | return t
  let some linked := Ignore.linkedDirectory? bytes | return t
  let t ← addEntry t (cwd.join (Ignore.commonLink linked))
  match Ignore.excludeBehind? t cwd file bytes with
  | .ok (some d) => addEntry t (cwd.join (Ignore.excludeNames.foldl Path.child d))
  | _ => return t

/-- Adds all that is in a directory and below it. -/
partial def addBelow (cwd : Path) (t : FileTree) (dir : Path) : IO FileTree := do
  let listing ← try ((← IO.currentDir) / machineText dir).readDir catch _ => pure #[]
  let t ← listing.foldlM (fun t e => do
    let p := dir.child e.fileName.toList
    let t ← addEntry t p
    if ← ((← IO.currentDir) / machineText p).isDir then addBelow cwd t p else return t) t
  addLinks cwd t dir

/-- The files that a directory on the way up can hold and a run can ask about. -/
def landmarks : List Path :=
  [".ignore", ".gitignore", ".git", ".git/info/exclude", ".jj", "staging-lint.toml",
    ".staging-lint.toml", "dbt_project.yml"].map .ofString

/-- Adds the landmarks of a directory and of those above it. -/
def addAbove (cwd : Path) (t : FileTree) (dir : Path) : IO FileTree := do
  let t ← (dir.ancestors.flatMap fun d => landmarks.map d.join).foldlM addEntry t
  dir.ancestors.foldlM (addLinks cwd) t

/-- Adds a path that a run starts from: what is below it and the landmarks above it. -/
def addStart (cwd : Path) (t : FileTree) (p : Path) : IO FileTree := do
  let t ← addAbove cwd (← addEntry t p) p
  if t.isDirectory cwd p then addBelow cwd t p else return t

/-- Adds git's settings files and the user's ignore file. -/
def addPersonal (cwd : Path) (home : String) (t : FileTree) : IO FileTree := do
  let t ← ((Ignore.gitSettings home).map cwd.join).foldlM addEntry t
  addEntry t (cwd.join (Ignore.personalFile t cwd home))

/-- The paths from which a check sets out to look for files. -/
def starts (w : World) (i : Invocation) : List Path :=
  match i.task with
  | .check args =>
    match w.loadSettings (w.settingsSource i.config args.root) with
    | .ok s =>
      let a := w.auditor s args.root
      (if args.paths.isEmpty then a.settings.scope.paths else args.paths).map a.root.join
    | .error _ => []
  | _ => []

/-- The picture of the machine that an invocation needs. -/
def picture (i : Invocation) : IO World := do
  let cwd := Path.ofString (← IO.currentDir).toString
  let settingsDir ← IO.getEnv "STAGING_LINT_CONFIG_DIR"
  let home ← IO.getEnv "HOME"
  let root := match i.task with
    | .check args => args.root
    | _ => none
  let globals := (SettingsSource.globalDirectory? settingsDir home).map fun d =>
    cwd.join (d.join (.ofString "config.toml"))
  let named := i.config.map cwd.join
  let tree ← addAbove cwd (← addEntry .empty cwd) ((root.map cwd.join).getD cwd)
  let tree ← (globals.toList ++ named.toList).foldlM addEntry tree
  let tree ← home.toList.foldlM (fun t h => addPersonal cwd h t) tree
  let w : World := { tree, cwd, settingsDir, home }
  return { w with tree := ← (starts w i).foldlM (addStart cwd) tree }

/-- Prints what a run leaves behind. -/
def report (o : Outcome) : IO UInt32 := do
  IO.print o.stdout
  o.stderr.forM fun line => IO.eprintln line
  return o.exit.toUInt32

/-- Runs an invocation on the machine. -/
def perform (i : Invocation) : IO UInt32 := do
  let w ← picture i
  let o := w.perform i
  match i.task, o.tree.read w.cwd (.ofString initialName) with
  | .init _, .ok bytes =>
    if o.exit = 0 then IO.FS.writeBinFile initialName ⟨bytes.toArray⟩
  | _, _ => pure ()
  report o

end StagingAudit.Main

/-- Runs the program. -/
def main (args : List String) : IO UInt32 :=
  match StagingAudit.Invocation.ofArguments args with
  | .ok i => StagingAudit.Main.perform i
  | .error h =>
    StagingAudit.Main.report (StagingAudit.World.halt { tree := .empty, cwd := .ofString "/" } h)
