import StagingAudit.Text.WordTable

/-!
# Word characters

A word is a maximal run of word characters: letters, marks, decimal digits, connector punctuation
and the two join controls. Names of blocks, materializations and the ends of markers are all found
by this class, and a *word edge* lies where it changes.
-/

namespace StagingAudit

/-- Word characters. In ASCII these are letters, digits and the low line. -/
def isWord (c : Char) : Bool :=
  if c.toNat < 0x80 then c.isAlphanum || c == '_' else inRanges wordRanges c

/-- Whether there is a character and it is a word character. -/
def isWordAt : Option Char → Bool
  | some c => isWord c
  | none => false

/-- Whether a word starts or ends between two neighbouring characters, either of which may be
missing at an end of the text. -/
def wordEdge (before after : Option Char) : Bool := isWordAt before != isWordAt after

@[simp]
theorem isWordAt_some (c : Char) : isWordAt (some c) = isWord c := rfl

@[simp]
theorem isWordAt_none : isWordAt none = false := rfl

end StagingAudit
