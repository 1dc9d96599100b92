import StagingAudit.Directive
import StagingAudit.Text.Lines

/-!
# Named blocks

A model is a chain of named blocks, each introduced by its name, `as` and an opening parenthesis.
An introduction is a whole word that stands at the start of the text or after white space or a
comma and is followed by white space, `as` in any case, optional white space and a parenthesis.
Words of the query language that can stand there without naming anything are not blocks.

The search is textual: a name inside a string or an SQL comment counts like any other.
-/

namespace StagingAudit

/-- The blocks every staging model declares, in their canonical order. -/
def requiredBlocks : List String := ["source", "renamed", "filtered", "enhanced", "final"]

/-- Words of the query language that can stand before `as (` without naming a block. -/
def reservedWords : List String :=
  ["select", "insert", "update", "delete", "merge", "with", "not", "cast", "case", "when",
    "then", "else", "end", "from", "where", "and", "or", "join", "left", "right", "inner",
    "outer", "cross", "on", "group", "order", "having", "limit", "union", "intersect", "except",
    "values", "set", "into"]

/-- Whether a word is reserved, in any ASCII case. -/
def isReserved (word : List Char) : Bool :=
  reservedWords.any fun r => sameAsciiCase r.toList word

/-! ## Introductions -/

/-- What follows the name in an introduction: white space, `as`, and the parenthesis that opens
the body. Answers the body and all that follows it. -/
def openBody : Recogniser := fun cs => do
  let cs ← Recogniser.white1 cs
  let cs ← Recogniser.folded ['a', 's'] cs
  Recogniser.literal ['('] (skipWhite cs)

/-- A place where a name introduces a block. -/
structure Introduction where
  /-- the byte offset of the name -/
  offset : Nat
  /-- the name as it is written -/
  word : List Char
  deriving DecidableEq, Repr

/-- Whether a name may start after this character. -/
def opensName (before : Char) : Bool := isWhite before || before == ','

/-- The introductions of a text whose first character has byte offset `offset`; `start` says
whether a name may start there. -/
def introductionsFrom (start : Bool) (offset : Nat) : List Char → List Introduction
  | [] => []
  | c :: cs =>
    let later := introductionsFrom (opensName c) (offset + c.utf8Size) cs
    if start && isWord c && (openBody (cs.dropWhile isWord)).isSome then
      ⟨offset, c :: cs.takeWhile isWord⟩ :: later
    else later

/-- The introductions of a text, in order. -/
def introductions (text : List Char) : List Introduction := introductionsFrom true 0 text

/-! ## The leading keyword -/

/-- `with` in any case, directly before an introduction. Answers the text after the keyword. -/
def leadingWith (before : Option Char) (cs : List Char) : Option (List Char) :=
  if wordEdge before cs.head? then do
    let rest ← Recogniser.folded ['w', 'i', 't', 'h'] cs
    let name ← Recogniser.white1 rest
    let tail ← Recogniser.word name
    let _ ← openBody tail
    return rest
  else none

/-- Blanks the first `with` that stands directly before an introduction. -/
def blankLeadingWith (text : List Char) : List Char :=
  match scan? leadingWith none text with
  | some (before, rest) =>
    before ++ blank ((text.drop before.length).take 4) ++ rest
  | none => text

/-! ## Blocks -/

/-- A named block and where it starts. -/
structure Block where
  /-- the name in lower case -/
  name : String
  /-- the line of the name, from one -/
  line : Nat
  deriving DecidableEq, Repr

/-- Whether the block has this name, in any ASCII case. -/
def Block.isNamed (b : Block) (name : String) : Bool := sameAsciiCase b.name.toList name.toList

/-- The blocks of a stripped text, in order. A name that is introduced twice is listed twice. -/
def findBlocks (stripped : List Char) : List Block :=
  ((introductions (blankLeadingWith stripped)).filter fun i => !isReserved i.word).map fun i =>
    ⟨String.ofList (lowerCase i.word), lineAt stripped i.offset⟩

end StagingAudit
