import StagingAudit.Block

/-!
# Regions

The region of a block is its body as far as a textual search can tell: from just past the opening
parenthesis to the parenthesis, comma and introduction of the next block, or to the end of the
text. Parentheses are not balanced, so a region can hold more than the block's own body; rules
only look for markers in it.

`selectList` reads the columns of a region's leading `select … from`.
-/

namespace StagingAudit

/-- The introduction of the block called `name`, in any case, where a word starts or ends. Answers
the body and all that follows it. -/
def introduces (name : List Char) (before : Option Char) (cs : List Char) : Option (List Char) :=
  if wordEdge before cs.head? then (Recogniser.folded name cs).bind openBody else none

/-- The text from just past the opening parenthesis of the first block called `name`. -/
def fromBody? (name text : List Char) : Option (List Char) :=
  (scan? (introduces name) none text).map (·.2)

/-- The byte offset just past the opening parenthesis of the first block called `name`. -/
def bodyStart? (name text : List Char) : Option Nat :=
  (fromBody? name text).map fun body => byteLength text - byteLength body

/-- The end of one block and the introduction of the next. -/
def nextBlock : Recogniser := fun cs => do
  let cs ← Recogniser.literal [')'] cs
  let cs ← Recogniser.literal [','] (skipWhite cs)
  let cs ← Recogniser.word (skipWhite cs)
  openBody cs

/-- The text up to the next block, or all of it. -/
def upToNextBlock (cs : List Char) : List Char :=
  match find? nextBlock cs with
  | some (region, _) => region
  | none => cs

/-- The region of the first block called `name`. -/
def isolate? (name text : List Char) : Option (List Char) := (fromBody? name text).map upToNextBlock

/-! ## Column lists -/

/-- `select` in any case. -/
def selectKeyword : Recogniser := Recogniser.folded ['s', 'e', 'l', 'e', 'c', 't']

/-- `from` in any case, and the white space that has to follow it. -/
def fromClause : Recogniser := fun cs => do
  let cs ← Recogniser.folded ['f', 'r', 'o', 'm'] cs
  Recogniser.white1 cs

/-- The column list of a region that starts with `select`: the text up to the first `from` between
white space, without white space at its ends. When only the white space after `select` parts it
from `from`, the list is empty, provided there are two such characters to share. -/
def selectList (region : List Char) : Option (List Char) := do
  let rest ← selectKeyword (skipWhite region)
  let columns ← Recogniser.white1 rest
  match find? (fun cs => (Recogniser.white1 cs).bind fromClause) columns with
  | some (list, _) => return trimWhite list
  | none =>
    if columns.length + 2 ≤ rest.length ∧ (fromClause columns).isSome then return [] else none

end StagingAudit
