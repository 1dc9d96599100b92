import StagingAudit.Ignore.Rule

/-!
# Layers

The ignore files of one directory make up a *layer*: `.ignore`, `.gitignore`, and the exclude file
of the repository whose top the directory is. A directory is the top of a repository when it holds
`.git` or `.jj`. Where `.git` is a file it leads to the exclude file by two steps: its first line
names a directory, and the file `commondir` there names the one that holds `info/exclude`.

A path is judged by the layers of the directories above it. An `.ignore` file always counts; the
other two count only inside a repository, and only up to its top. A nearer file wins over a farther
one, `.ignore` over the others, and all of them over the user's own rules, which count only inside
a repository as well.
-/

namespace StagingAudit.Ignore

/-! ## Exclude files -/

/-- How the first line of a `.git` file starts. -/
def linkMark : List Char := "gitdir: ".toList

/-- The first line of a file, if it has one; `none` inside when it is no text. -/
def firstLine? (bytes : List UInt8) : Option (Option (List Char)) :=
  (byteLines bytes).head?.map decode?

/-- The directory that the contents of a `.git` file name. -/
def linkedDirectory? (bytes : List UInt8) : Option Path :=
  match firstLine? bytes with
  | some (some line) => (Recogniser.literal linkMark line).map Path.mk
  | _ => none

/-- The file that says where the rest of a linked directory is. -/
def commonLink (linked : Path) : Path := linked.child "commondir".toList

/-- The directory that the first line of a `commondir` file names. Only a line that starts with a
full stop is seen from the directory of the file. -/
def commonDirectory (linked : Path) (line : List Char) : Path :=
  if line.head? = some '.' then linked.join ⟨line⟩ else ⟨line⟩

/-- The directory of the exclude file behind a `.git` file, if the links lead to one. -/
def excludeBehind? (t : FileTree) (cwd file : Path) (bytes : List UInt8) :
    Except Fault (Option Path) :=
  if firstLine? bytes = some none then .error (.link file .notText)
  else
    match linkedDirectory? bytes with
    | none => .ok none
    | some linked =>
      match t.look cwd (commonLink linked) with
      | .error _ => .ok none
      | .ok (.directory _) => .error (.link (commonLink linked) .isADirectory)
      | .ok (.file bytes) =>
        match firstLine? bytes with
        | none => .ok none
        | some none => .error (.link (commonLink linked) .notText)
        | some (some line) => .ok (some (commonDirectory linked line))

/-- The name of the directory or file that makes a directory the top of a repository. -/
def gitName : List Char := ".git".toList

/-- The names that lead to the exclude file from the directory that holds it. -/
def excludeNames : Place := ["info".toList, "exclude".toList]

/-- Reads the exclude file of the directory `here`, which has the path `dir`. -/
def loadExclude (t : FileTree) (cwd dir : Path) (here : FileTree) : RuleFile × List Fault :=
  match here.lookBelow dir [gitName] with
  | .ok (.file bytes) =>
    match excludeBehind? t cwd (dir.child gitName) bytes with
    | .error fault => ({}, [fault])
    | .ok none => ({}, [])
    | .ok (some d) =>
      let file := excludeNames.foldl Path.child d
      let read := RuleFile.ofLook file (t.look cwd file)
      (read, read.complaints)
  | .ok (.directory _) =>
    let names := gitName :: excludeNames
    let read := RuleFile.ofLook (names.foldl Path.child dir) (here.lookBelow dir names)
    (read, read.complaints)
  | .error _ => ({}, [])

/-! ## Layers -/

/-- What the ignore files of one directory say. -/
structure Layer where
  /-- whether the directory is the top of a repository -/
  isTop : Bool := false
  /-- the rules of `.ignore` -/
  plain : List Rule := []
  /-- the rules of `.gitignore` -/
  shared : List Rule := []
  /-- the rules of the exclude file -/
  exclude : List Rule := []
  /-- what is wrong with the files -/
  complaints : List Fault := []
  deriving Repr

/-- Whether something is there. -/
def isThere (found : Except FileFault FileTree) : Bool :=
  match found with
  | .ok _ => true
  | .error _ => false

/-- The layer of the directory `here`, which has the path `dir`. -/
def Layer.load (t : FileTree) (cwd dir : Path) (here : FileTree) : Layer :=
  let read (name : String) : RuleFile :=
    RuleFile.ofLook (dir.child name.toList) (here.lookBelow dir [name.toList])
  let plain := read ".ignore"
  let shared := read ".gitignore"
  let (exclude, faults) := loadExclude t cwd dir here
  { isTop := [gitName, ".jj".toList].any fun name => isThere (here.lookBelow dir [name])
    plain := plain.rules
    shared := shared.rules
    exclude := exclude.rules
    complaints := plain.complaints ++ shared.complaints ++ faults }

/-! ## Judging paths -/

/-- The layers above a place, nearest first, each with the place of its directory. -/
abbrev Layers := List (Place × Layer)

/-- The layers up to and including that of the nearest top of a repository; none without one. -/
def Layers.inRepository (layers : Layers) : Layers :=
  match layers.span fun (_, l) => !l.isTop with
  | (below, top :: _) => below ++ [top]
  | (_, []) => []

/-- The bytes of the path from a directory to a place below it. -/
def pathBelow (dir place : Place) : List UInt8 := encode (Path.joinPieces (place.drop dir.length))

/-- What the nearest layer with something to say says about a place, by one of its files. -/
def Layers.verdict? (layers : Layers) (file : Layer → List Rule) (place : Place)
    (isDirectory : Bool) : Option Bool :=
  layers.findSome? fun (dir, l) =>
    if (file l).isEmpty then none
    else Ignore.verdict? (file l) (pathBelow dir place) isDirectory

/-- Whether a place is ignored; `own` is what the user's own rules say about it. -/
def Layers.ignores (layers : Layers) (own : Option Bool) (place : Place) (isDirectory : Bool) :
    Bool :=
  let inside := layers.inRepository
  let verdict := (layers.verdict? Layer.plain place isDirectory).or
    ((inside.verdict? Layer.shared place isDirectory).or
      ((inside.verdict? Layer.exclude place isDirectory).or
        (if inside.isEmpty then none else own)))
  verdict.getD false

end StagingAudit.Ignore
