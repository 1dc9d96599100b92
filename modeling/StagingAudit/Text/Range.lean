/-!
# Code point ranges

The two shapes in which character data is kept: a closed interval of code points, for classes,
and a run of code points that all move by the same distance, for one-to-one mappings.
-/

namespace StagingAudit

/-- A closed interval of code points. -/
structure CodeRange where
  /-- the least code point -/
  first : Nat
  /-- the greatest code point -/
  last : Nat
  deriving DecidableEq, Repr

namespace CodeRange

/-- Whether the interval holds the character. -/
def holds (r : CodeRange) (c : Char) : Bool := r.first ≤ c.toNat && c.toNat ≤ r.last

end CodeRange

/-- Whether one of the intervals holds the character. -/
def inRanges (rs : List CodeRange) (c : Char) : Bool := rs.any (·.holds c)

/-- Code points `first`, `first + stride`, … up to `last`, each mapped to the one `shift` away. -/
structure CaseRun where
  /-- the least code point that moves -/
  first : Nat
  /-- the greatest code point that moves -/
  last : Nat
  /-- the distance between two neighbours of the run -/
  stride : Nat
  /-- how far each one moves -/
  shift : Int
  deriving DecidableEq, Repr

namespace CaseRun

/-- Whether the run moves the character. -/
def holds (r : CaseRun) (c : Char) : Bool :=
  r.first ≤ c.toNat && c.toNat ≤ r.last && (c.toNat - r.first) % r.stride == 0

/-- Where the run moves the character to. -/
def move (r : CaseRun) (c : Char) : Char := Char.ofNat ((c.toNat : Int) + r.shift).toNat

end CaseRun

/-- The image of a character under a list of runs; a character of no run stays. -/
def mapRuns (rs : List CaseRun) (c : Char) : Char :=
  match rs.find? (·.holds c) with
  | some r => r.move c
  | none => c

end StagingAudit
