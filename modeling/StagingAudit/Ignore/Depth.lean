import StagingAudit.Ignore.Part
import StagingAudit.Ignore.SlotTable
import StagingAudit.Text.Bytes

/-!
# Patterns that are nested too deep

Of the patterns of an ignore file those that are little more than text are found by comparing texts.
All others have to be made ready for matching, and this fails for a pattern that is nested too
deep. First come the patterns that end with an extension, each by itself, extension by extension in
the order of a table; then those that may match more than the last name of a path, which are
numbered. The first failure is the one to be told. Patterns for the last name without groups are
made ready apart from the others; they are never nested too deep.
-/

namespace StagingAudit.Ignore

/-- How the paths of a pattern are found. -/
inductive Approach where
  /-- by comparing the whole path, its last name, its extension, its start or its end -/
  | text
  /-- by matching those with an extension, which is given with its full stop -/
  | extension (ending : List Char)
  /-- by matching the last name -/
  | name
  /-- by matching the whole path -/
  | general
  deriving DecidableEq, Repr

/-- Whether a part is a character. -/
def Part.isChar : Part → Bool
  | char _ => true
  | _ => false

/-- Whether a part is a character that an extension may have after its full stop. -/
def Part.isExtensionChar : Part → Bool
  | char c => c != '.' && c != '/'
  | _ => false

/-- Whether a pattern is little more than text: characters with any directories before or after
them, or any name with an extension. -/
def isText : List Part → Bool
  | [] => false
  | .deepStart :: .star :: .char '.' :: rest => rest.all Part.isExtensionChar
  | .deepStart :: rest => !rest.isEmpty && rest.all Part.isChar
  | parts =>
    match parts.getLast? with
    | some .deepEnd => parts.dropLast.all Part.isChar
    | _ => parts.all Part.isChar

/-- Whether a part stands for bytes of a name, and is no group. -/
def Part.isInName : Part → Bool
  | char c => c != '/'
  | any | star => true
  | oneOf c => !c.holds separator
  | _ => false

/-- Whether a pattern is for the last name of a path, in any directory, and has no groups. -/
def isName : List Part → Bool
  | .deepStart :: rest => !rest.isEmpty && rest.all Part.isInName
  | _ => false

/-- The extension that ends with some characters and before them with parts, last first. -/
def extensionBefore? (ending : List Char) : List Part → Option (List Char)
  | .char c :: parts =>
    if c = '/' then none
    else if c = '.' then some (c :: ending)
    else extensionBefore? (c :: ending) parts
  | _ => none

/-- The extension that every path of a pattern has, if the pattern ends with one. -/
def extension? (parts : List Part) : Option (List Char) := extensionBefore? [] parts.reverse

/-- How the paths of a pattern are found. -/
def approach (parts : List Part) : Approach :=
  if isText parts then .text
  else
    match extension? parts with
    | some ending => .extension ending
    | none => if isName parts then .name else .general

/-- A pattern after the bytes of its extension, if it is matched on paths with that only. -/
def underExtension? (parts : List Part) : Option (List UInt8 × List Part) :=
  match approach parts with
  | .extension ending => some (encode ending, parts)
  | _ => none

/-- The patterns that are matched on paths with an extension only, in the order in which they are
made ready. -/
def byExtension (patterns : List (List Part)) : List (List Part) :=
  let entries := patterns.filterMap underExtension?
  (SlotTable.ofKeys (entries.map Prod.fst)).keys.flatMap fun key =>
    (entries.filter (·.1 == key)).map Prod.snd

/-- Which pattern is nested too deep. -/
inductive DepthFault where
  /-- one that is made ready by itself, as a regular expression -/
  | alone (expression : List Char)
  /-- one of those that are made ready together, by its number -/
  | among (n : Nat)
  deriving DecidableEq, Repr

/-- That a pattern is nested too deep, by its number among those that are made ready together. -/
def numbered (n : Nat) : String := "error parsing pattern " ++ toString n

/-- A fault in words. A pattern that is made ready by itself has the number zero. -/
def DepthFault.message : DepthFault → String
  | alone expression => "error parsing glob '" ++ String.ofList expression ++ "': " ++ numbered 0
  | among n => numbered n

/-- The greatest depth of a pattern. -/
def maxDepth : Nat := 250

/-- Whether a pattern is nested too deep. -/
def isTooDeep (parts : List Part) : Bool := maxDepth < wholeDepth parts

/-- The first failure to make patterns ready for matching. -/
def depthFault? (patterns : List (List Part)) : Option DepthFault :=
  (((byExtension patterns).find? isTooDeep).map fun parts => .alone (expression parts)).or
    (((patterns.filter fun parts => approach parts = .general).findIdx? isTooDeep).map .among)

end StagingAudit.Ignore
