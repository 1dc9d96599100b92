import StagingAudit.Text.CaseTable
import StagingAudit.Text.CasedTable

/-!
# Letter case

Three notions of case are in use, from narrow to wide.

* `sameAsciiCase` compares two texts up to the case of ASCII letters only.
* `foldCase` is simple case folding: one character to one character, so that `ſ` and `s`, or the
  Kelvin sign and `k`, count as the same letter.
* `lowerCase` is full lower-casing of a text: a dotted capital i becomes two characters, and a
  capital sigma becomes a final sigma exactly at the end of a word.
-/

namespace StagingAudit

/-! ## Comparison in ASCII -/

/-- Whether two texts are equal up to the case of ASCII letters. -/
def sameAsciiCase (a b : List Char) : Bool := a.map Char.toLower == b.map Char.toLower

/-! ## Simple folding -/

/-- The simple case folding of a character. -/
def foldCase (c : Char) : Char := if c.toNat < 0x80 then c.toLower else mapRuns foldRuns c

/-- Whether two characters are the same letter up to case. -/
def sameLetter (a b : Char) : Bool := foldCase a == foldCase b

/-! ## Full lower-casing -/

/-- Whether the nearest character that case rules do not look past has a case. -/
def reachesCased (cs : List Char) : Bool :=
  match cs.dropWhile (inRanges caseIgnorableRanges) with
  | c :: _ => inRanges casedRanges c
  | [] => false

/-- The lower case of one character, given what stands before it (nearest first) and after it.
A capital sigma that ends a word, and does not also start it, becomes a final sigma. -/
def lowerChar (before : List Char) (c : Char) (after : List Char) : List Char :=
  if c.toNat < 0x80 then [c.toLower]
  else if c = 'Σ' then [if reachesCased before && !reachesCased after then 'ς' else 'σ']
  else if c = 'İ' then ['i', Char.ofNat 0x307]
  else [mapRuns lowerRuns c]

/-- Lower-cases a text that follows `before`, which is given nearest character first. -/
def lowerFrom (before : List Char) : List Char → List Char
  | [] => []
  | c :: cs => lowerChar before c cs ++ lowerFrom (c :: before) cs

/-- The lower case of a text. -/
def lowerCase (cs : List Char) : List Char := lowerFrom [] cs

end StagingAudit
