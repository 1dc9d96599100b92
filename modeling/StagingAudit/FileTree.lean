import StagingAudit.Path

/-!
# File trees

The files a run can see, as a value: a file with its contents, or a directory with what is in it. A
*place* is a list of names from the root down; a *path* leads to a place when every step of it can
be taken, so `..` after a name needs that name to be a directory, and so does a separator at the
end.

A tree holds files and directories under names that are texts. Symbolic links and names that are no
UTF-8 are left out, so `..` leads back to where a path came from.
-/

namespace StagingAudit

/-- The names that lead from the root of a tree to a file or directory. -/
abbrev Place := List (List Char)

/-- A file, or a directory and everything below it. -/
inductive FileTree where
  /-- a file with its contents -/
  | file (bytes : List UInt8)
  /-- a directory with what is in it, by name -/
  | directory (children : List (List Char × FileTree))
  deriving Repr

/-- Why a file cannot be used. -/
inductive FileFault where
  /-- nothing is there -/
  | notFound
  /-- something on the way is no directory -/
  | notADirectory
  /-- a directory is there -/
  | isADirectory
  /-- the path or a name on the way is too long -/
  | nameTooLong
  /-- the path holds a NUL -/
  | badName
  /-- the contents are no UTF-8 text -/
  | notText
  deriving DecidableEq, Repr

/-- A fault in words. -/
def FileFault.message : FileFault → String
  | notFound => "No such file or directory (os error 2)"
  | notADirectory => "Not a directory (os error 20)"
  | isADirectory => "Is a directory (os error 21)"
  | nameTooLong => "File name too long (os error 36)"
  | badName => "file name contained an unexpected NUL byte"
  | notText => "stream did not contain valid UTF-8"

namespace FileTree

/-- A tree without files. -/
def empty : FileTree := .directory []

/-- What is in a directory; a file holds nothing. -/
def children : FileTree → List (List Char × FileTree)
  | .file _ => []
  | .directory children => children

/-- The tree at a place. -/
def get? : FileTree → Place → Option FileTree
  | t, [] => some t
  | t, name :: names => (t.children.lookup name).bind fun sub => sub.get? names

/-- The children of a directory with one of them put in, in place of one with the same name. -/
def setChild (name : List Char) (sub : FileTree) :
    List (List Char × FileTree) → List (List Char × FileTree)
  | [] => [(name, sub)]
  | (n, t) :: rest => if n = name then (n, sub) :: rest else (n, t) :: setChild name sub rest

/-- Changes what is at a place, where nothing counts as an empty directory. A file on the way gives
way to a directory. -/
def change (f : FileTree → FileTree) : Place → FileTree → FileTree
  | [], t => f t
  | name :: names, t =>
    .directory (setChild name (change f names ((t.children.lookup name).getD empty)) t.children)

/-- Adds a directory and the directories above it, where there is nothing yet. -/
def addDirectory (t : FileTree) (place : Place) : FileTree := t.change id place

/-- Adds a file and the directories above it. -/
def addFile (t : FileTree) (place : Place) (bytes : List UInt8) : FileTree :=
  t.change (fun _ => .file bytes) place

/-! ## Following paths -/

/-- The longest name in bytes. -/
def maxNameBytes : Nat := 255

/-- The longest path in bytes, as it is written. -/
def maxPathBytes : Nat := 4095

/-- The steps from the root to some place, last first: each name with the tree that it leads to. -/
abbrev Trail := List (List Char × FileTree)

/-- The tree at the end of a trail. -/
def atTrail (root : FileTree) (trail : Trail) : FileTree := (trail.head?.map (·.2)).getD root

/-- Follows the pieces of a path from the end of a trail. -/
def follow (root : FileTree) : Trail → List (List Char) → Except FileFault Trail
  | trail, [] => .ok trail
  | trail, piece :: rest =>
    match root.atTrail trail with
    | .file _ => .error .notADirectory
    | .directory children =>
      if Path.isIdle piece then root.follow trail rest
      else if piece = ['.', '.'] then root.follow trail.tail rest
      else if maxNameBytes < byteLength piece then .error .nameTooLong
      else
        match children.lookup piece with
        | none => .error .notFound
        | some sub => root.follow ((piece, sub) :: trail) rest

/-- The trail of a path, seen from the current directory. -/
def trailOf (t : FileTree) (cwd p : Path) : Except FileFault Trail :=
  if p.chars.contains '\x00' then .error .badName
  else if maxPathBytes < byteLength p.chars then .error .nameTooLong
  else if p.chars.isEmpty then .error .notFound
  else t.follow [] (splitAt '/' (cwd.join p).chars)

/-- The place that a path leads to. -/
def locate (t : FileTree) (cwd p : Path) : Except FileFault Place :=
  (t.trailOf cwd p).map fun trail => (trail.map (·.1)).reverse

/-- What a path leads to. -/
def look (t : FileTree) (cwd p : Path) : Except FileFault FileTree :=
  (t.trailOf cwd p).map t.atTrail

/-- Whether a path leads to something. -/
def exists? (t : FileTree) (cwd p : Path) : Bool :=
  match t.look cwd p with
  | .ok _ => true
  | .error _ => false

/-- Whether a path leads to a directory. -/
def isDirectory (t : FileTree) (cwd p : Path) : Bool :=
  match t.look cwd p with
  | .ok (.directory _) => true
  | _ => false

/-- Whether a path leads to a file. -/
def isFile (t : FileTree) (cwd p : Path) : Bool :=
  match t.look cwd p with
  | .ok (.file _) => true
  | _ => false

/-- What some names lead to from the directory `here`, which has the path `dir`. -/
def lookBelow (here : FileTree) (dir : Path) (names : Place) : Except FileFault FileTree :=
  if maxPathBytes < byteLength (names.foldl Path.child dir).chars then .error .nameTooLong
  else
    match here.get? names with
    | some t => .ok t
    | none => .error .notFound

/-! ## Contents -/

/-- The contents of the file that a path leads to. -/
def read (t : FileTree) (cwd p : Path) : Except FileFault (List UInt8) := do
  match ← t.look cwd p with
  | .file bytes => return bytes
  | .directory _ => throw .isADirectory

/-- The text of the file that a path leads to. -/
def readText (t : FileTree) (cwd p : Path) : Except FileFault (List Char) := do
  match decode? (← t.read cwd p) with
  | some text => return text
  | none => throw .notText

/-- Writes a file with a plain name into the current directory. -/
def write (t : FileTree) (cwd : Path) (name : List Char) (bytes : List UInt8) :
    Except FileFault FileTree := do
  let dir ← t.locate cwd cwd
  match t.get? (dir ++ [name]) with
  | some (.directory _) => throw .isADirectory
  | _ => return t.addFile (dir ++ [name]) bytes

end FileTree

end StagingAudit
