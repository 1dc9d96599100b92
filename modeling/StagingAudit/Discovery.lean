import StagingAudit.Ignore.Layer
import StagingAudit.Ignore.Personal

/-!
# Discovery

Which files a run looks at: the models below the configured directories, those named on the
command line, or those that a `git diff` lists. Models are files whose extension is `sql`; a file
that is named on the command line is taken whatever its extension.

A search below a directory leaves out what is ignored. Ignore files above the directory have to be
in order: a complaint about one of them ends the search. Complaints about those in the directory
and below it are not made.
-/

namespace StagingAudit

/-- The extension of model files. -/
def modelExtension : List Char := ['s', 'q', 'l']

/-- Whether a path has the extension of model files. -/
def hasModelExtension (p : Path) : Bool := p.extension? == some modelExtension

/-- The order in which paths are listed. -/
def pathLE (p q : Path) : Bool := Path.order p q != .gt

/-- Drops each path that has the same components as the one before it, which starts with `p`. -/
def distinctFrom (p : Path) : List Path → List Path
  | [] => [p]
  | q :: rest => if p.same q then distinctFrom p rest else p :: distinctFrom q rest

/-- Paths in order, each once: of several with the same components the first one stays. -/
def sortPaths (paths : List Path) : List Path :=
  match paths.mergeSort pathLE with
  | [] => []
  | p :: rest => distinctFrom p rest

/-! ## Searches -/

/-- Why a search comes to nothing. -/
inductive SearchFault where
  /-- there are complaints about ignore files -/
  | ignoreFiles (complaints : List Ignore.Fault)
  /-- a directory cannot be listed -/
  | directory (path : Path) (fault : FileFault)
  deriving DecidableEq, Repr

/-- A fault in words. -/
def SearchFault.message : SearchFault → String
  | ignoreFiles complaints => "\n".intercalate (complaints.map Ignore.Fault.message)
  | directory path fault =>
    path.display ++ ": IO error for operation on " ++ path.display ++ ": " ++ fault.message

/-- What a search can see. -/
structure Search where
  /-- the files -/
  tree : FileTree
  /-- the current directory -/
  cwd : Path
  /-- the user's own ignore rules -/
  own : List Ignore.Rule := []

namespace Search

/-- The directories above a place, from the root down. -/
def directoriesAbove (place : Place) : List Place :=
  (List.range place.length).map fun n => place.take n

/-- The absolute path of a place. -/
def pathOf (place : Place) : Path := ⟨'/' :: Path.joinPieces place⟩

/-- The layers of the directories above a place, nearest first. -/
def layersAbove (s : Search) (place : Place) : Ignore.Layers :=
  ((directoriesAbove place).map fun d =>
    (d, Ignore.Layer.load s.tree s.cwd (pathOf d) ((s.tree.get? d).getD .empty))).reverse

/-- Whether a place is ignored, given the layers above it; the user's own rules see its path as it
is written. -/
def isIgnored (s : Search) (layers : Ignore.Layers) (path : Path) (place : Place)
    (isDirectory : Bool) : Bool :=
  layers.ignores (Ignore.verdict? s.own (Ignore.pathFrom s.cwd path) isDirectory) place isDirectory

mutual

/-- The paths of the files below something that is not ignored, which has the given path and place
and the given layers above it. A directory whose path is too long cannot be listed. -/
def walk (s : Search) (layers : Ignore.Layers) (path : Path) (place : Place) :
    FileTree → Except SearchFault (List Path)
  | .file _ => .ok [path]
  | .directory children =>
    if FileTree.maxPathBytes < byteLength path.chars then .error (.directory path .nameTooLong)
    else
      let layer := Ignore.Layer.load s.tree s.cwd path (.directory children)
      s.walkAll ((place, layer) :: layers) path place children

/-- The paths of the files among the children of a directory and below them, as far as they are
not ignored. -/
def walkAll (s : Search) (layers : Ignore.Layers) (path : Path) (place : Place) :
    List (List Char × FileTree) → Except SearchFault (List Path)
  | [] => .ok []
  | child :: rest => do
    let here ← s.walkChild layers path place child
    let others ← s.walkAll layers path place rest
    return here ++ others

/-- The paths of the files at one child of a directory and below it, unless it is ignored. -/
def walkChild (s : Search) (layers : Ignore.Layers) (path : Path) (place : Place) :
    List Char × FileTree → Except SearchFault (List Path)
  | (name, sub) =>
    let isDirectory := match sub with
      | .directory _ => true
      | .file _ => false
    if s.isIgnored layers (path.child name) (place ++ [name]) isDirectory then .ok []
    else s.walk layers (path.child name) (place ++ [name]) sub

end

/-- The models below a directory, in order. -/
def modelsUnder (s : Search) (dir : Path) : Except SearchFault (List Path) :=
  match s.tree.locate s.cwd dir, s.tree.look s.cwd dir with
  | .ok start, .ok top =>
    let above := s.layersAbove start
    let complaints := above.reverse.flatMap fun (_, l) => l.complaints
    if !complaints.isEmpty then .error (.ignoreFiles complaints)
    else
      (s.walk above dir start top).map fun files =>
        (files.filter fun p => hasModelExtension p && s.tree.isFile s.cwd p).mergeSort pathLE
  | .error fault, _ | _, .error fault => .error (.directory dir fault)

/-- The models below the directories of a project, each once and in order. Directories that do not
exist are passed over. -/
def defaultFiles (s : Search) (root : Path) (dirs : List Path) : Except SearchFault (List Path) :=
  (dirs.mapM fun dir =>
    if s.tree.isDirectory s.cwd (root.join dir) then s.modelsUnder (root.join dir) else .ok []).map
    fun found => sortPaths found.flatten

/-- What one path of the command line stands for: a directory for the models below it, a file for
itself, anything else for nothing. -/
def explicitPath? (s : Search) (root p : Path) : Except SearchFault (Option (List Path)) :=
  let path := root.join p
  if s.tree.isDirectory s.cwd path then (s.modelsUnder path).map some
  else if s.tree.isFile s.cwd path then .ok (some [path])
  else .ok none

/-- The files that the paths of a command line stand for, in their order. -/
def explicitFiles (s : Search) (root : Path) (paths : List Path) :
    Except SearchFault (List Path) :=
  (paths.mapM (s.explicitPath? root)).map fun found => found.flatMap (·.getD [])

/-- The paths of a command line that lead nowhere, up to the one at which the search ends. -/
def missingPaths (s : Search) (root : Path) (paths : List Path) : List Path :=
  (paths.takeWhile fun p => (s.explicitPath? root p).isOk).filter fun p =>
    match s.explicitPath? root p with
    | .ok none => true
    | _ => false

end Search

/-! ## Changed files -/

/-- What `git diff` answers for a base revision. -/
structure GitAnswer where
  /-- the exit status -/
  status : Nat
  /-- what it prints -/
  output : List UInt8
  deriving DecidableEq, Repr

/-- What git answers when it is started, for each base revision. -/
abbrev Git := String → GitAnswer

/-- The arguments with which the changes since a base revision are asked for. -/
def diffArguments (base : String) (dirs : List Path) : List String :=
  ["diff", "--name-only", "--relative", base, "--"] ++ dirs.map Path.display

/-- The paths that the output of `git diff` lists, one a line. -/
def listedPaths (output : List UInt8) : List Path :=
  (textLines (decodeLossy output)).map fun line => ⟨trimWhite line⟩

/-- The models that the output of `git diff` lists, as far as they exist. -/
def listedModels (t : FileTree) (cwd root : Path) (output : List UInt8) : List Path :=
  (((listedPaths output).filter hasModelExtension).map root.join).filter (t.exists? cwd)

/-- What came of asking git for changes. -/
structure Changes where
  /-- what it lists, unless it cannot be started -/
  listing : Option (List UInt8)
  /-- the argument lists with which it was started -/
  calls : List (List String)
  deriving DecidableEq, Repr

namespace Changes

/-- Asks git for the changes since `origin/main`, or since `HEAD` when that fails; when that fails
as well, nothing is listed. `ask` gives the answer for a base revision, or nothing when git cannot
be started for it; and git cannot be started at all in a directory that does not exist, nor with an
argument that holds a NUL. -/
def find (t : FileTree) (cwd root : Path) (dirs : List Path)
    (ask : String → Option GitAnswer) : Changes :=
  if t.isDirectory cwd root && dirs.all (fun d => !d.chars.contains '\x00') then
    match ask "origin/main" with
    | none => ⟨none, []⟩
    | some main =>
      if main.status = 0 then ⟨some main.output, [diffArguments "origin/main" dirs]⟩
      else
        match ask "HEAD" with
        | none => ⟨none, [diffArguments "origin/main" dirs]⟩
        | some head =>
          ⟨some (if head.status = 0 then head.output else []),
            [diffArguments "origin/main" dirs, diffArguments "HEAD" dirs]⟩
  else ⟨none, []⟩

/-- The models that have changed, unless git cannot be started. -/
def files (c : Changes) (t : FileTree) (cwd root : Path) : Option (List Path) :=
  c.listing.map (listedModels t cwd root)

end Changes

end StagingAudit
