import StagingAudit.Text.Bytes
import StagingAudit.Text.Lines

/-!
# Paths

A path is the text that a user or a settings file wrote. Its *components* are what it means:
repeated separators, a separator at the end and `.` inside the path do not count, a leading `/` or
`.` and every `..` do. Prefixes, parents and the order of paths go by components; what is shown is
the text, so an operation that cuts a path cuts its text and leaves the rest as it was written.

Paths are texts here. A file system can have names that are no UTF-8, and these are left out; only
what is shown of such a path is looked at (`shownPath`).
-/

namespace StagingAudit

/-- A path as it is written. -/
structure Path where
  /-- the characters of the path -/
  chars : List Char
  deriving DecidableEq, Repr

/-- What a path is made of. -/
inductive Component where
  /-- the root of the file tree, a leading separator -/
  | root
  /-- a leading `.` -/
  | here
  /-- `..` -/
  | parent
  /-- a name -/
  | name (chars : List Char)
  deriving DecidableEq, Repr

namespace Path

/-- The path with this text. -/
def ofString (s : String) : Path := ⟨s.toList⟩

/-- The text of the path. -/
def display (p : Path) : String := String.ofList p.chars

/-- Whether the path starts at the root of the file tree. -/
def isAbsolute (p : Path) : Bool := p.chars.head? == some '/'

/-! ## Components -/

/-- A piece between separators that is no component: nothing, or a `.`. -/
def isIdle (piece : List Char) : Bool := piece.isEmpty || piece == ['.']

/-- The component that a piece between separators stands for, inside a path. -/
def component? (piece : List Char) : Option Component :=
  if isIdle piece then none
  else if piece = ['.', '.'] then some .parent
  else some (.name piece)

/-- What the path starts from, when that is not a name or `..`. -/
def head? (p : Path) : Option Component :=
  if p.isAbsolute then some .root
  else if (splitAt '/' p.chars).head? = some ['.'] then some .here
  else none

/-- The pieces between separators, without the one that makes up the head. -/
def pieces (p : Path) : List (List Char) :=
  match p.head? with
  | some _ => (splitAt '/' p.chars).tail
  | none => splitAt '/' p.chars

/-- The components of the path, in order. -/
def components (p : Path) : List Component := p.head?.toList ++ p.pieces.filterMap component?

/-! ## Texts from pieces -/

/-- Puts the separators back between pieces. -/
def joinPieces (pieces : List (List Char)) : List Char := ['/'].intercalate pieces

/-- Pieces without the idle ones at the end. -/
def dropIdleEnd (pieces : List (List Char)) : List (List Char) :=
  (pieces.reverse.dropWhile isIdle).reverse

/-- The path with a given head and pieces. -/
def ofPieces : Option Component → List (List Char) → Path
  | some .root, pieces => ⟨'/' :: joinPieces pieces⟩
  | some .here, [] => ⟨['.']⟩
  | some .here, pieces => ⟨'.' :: '/' :: joinPieces pieces⟩
  | _, pieces => ⟨joinPieces pieces⟩

/-! ## Joining and cutting -/

/-- The path `q` as seen from `p`. An absolute `q` stands by itself; otherwise one separator is
put between the two, unless `p` is empty or ends with one. -/
def join (p q : Path) : Path :=
  if q.isAbsolute then q
  else if p.chars.isEmpty || p.chars.getLast? == some '/' then ⟨p.chars ++ q.chars⟩
  else ⟨p.chars ++ '/' :: q.chars⟩

/-- The path of a file with a given name in the directory `p`. -/
def child (p : Path) (name : List Char) : Path := p.join ⟨name⟩

/-- Drops as many components as are given, if they are the first ones of the pieces. -/
def dropComponents : List Component → List (List Char) → Option (List (List Char))
  | [], pieces => some pieces
  | _ :: _, [] => none
  | k :: ks, piece :: pieces =>
    match component? piece with
    | none => dropComponents (k :: ks) pieces
    | some k' => if k' = k then dropComponents ks pieces else none

/-- What is left of `p` below `base`: `none` when the components of `base` are not the first ones
of `p`, otherwise the rest of the text, without separators and `.` at its ends. -/
def below? (base p : Path) : Option Path :=
  match base.components, p.head? with
  | [], head => some (ofPieces head (dropIdleEnd p.pieces))
  | k :: ks, some h => if h = k then rest ks p.pieces else none
  | ks, none => rest ks p.pieces
where
  /-- The path left after the given components. -/
  rest (ks : List Component) (pieces : List (List Char)) : Option Path :=
    (dropComponents ks pieces).map fun left => ⟨joinPieces (dropIdleEnd (left.dropWhile isIdle))⟩

/-- The path without its last component; the root and the empty path have no parent. -/
def parent? (p : Path) : Option Path :=
  match dropIdleEnd p.pieces with
  | [] =>
    match p.head? with
    | some .here => some ⟨[]⟩
    | _ => none
  | pieces => some (ofPieces p.head? (dropIdleEnd pieces.dropLast))

/-- A path and its parents, at most `n` of them. -/
def ancestorsUpTo : Nat → Path → List Path
  | 0, p => [p]
  | n + 1, p =>
    match p.parent? with
    | some q => p :: ancestorsUpTo n q
    | none => [p]

/-- The path, its parent, the parent of that, and so on to the top. Every step drops a component,
so there are no more steps than components. -/
def ancestors (p : Path) : List Path := ancestorsUpTo p.components.length p

/-! ## Names -/

/-- The last component of the path, when it is a name. -/
def fileName? (p : Path) : Option (List Char) :=
  match p.components.getLast? with
  | some (.name n) => some n
  | _ => none

/-- The text after the last full stop of a file name, when something stands before the stop. -/
def extensionOf? (name : List Char) : Option (List Char) :=
  match (name.reverse.dropWhile (· != '.')) with
  | _ :: _ :: _ => some (name.reverse.takeWhile (· != '.')).reverse
  | _ => none

/-- The extension of the path's file name. -/
def extension? (p : Path) : Option (List Char) := p.fileName?.bind extensionOf?

/-! ## Order -/

/-- Order of components: the root, then `.`, then `..`, then names by code point. -/
def compareComponent : Component → Component → Ordering
  | .name a, .name b => compareOfLessAndEq a b
  | a, b => compare (rank a) (rank b)
where
  /-- the place of a kind of component -/
  rank : Component → Nat
    | .root => 0
    | .here => 1
    | .parent => 2
    | .name _ => 3

/-- The lexicographic order of two lists of components. -/
def compareComponents : List Component → List Component → Ordering
  | [], [] => .eq
  | [], _ :: _ => .lt
  | _ :: _, [] => .gt
  | a :: as, b :: bs => (compareComponent a b).then (compareComponents as bs)

/-- The order of paths, by components. -/
def order (p q : Path) : Ordering := compareComponents p.components q.components

/-- Whether two paths have the same components. -/
def same (p q : Path) : Bool := p.components == q.components

theorem same_iff {p q : Path} : p.same q ↔ p.components = q.components := beq_iff_eq

end Path

end StagingAudit
