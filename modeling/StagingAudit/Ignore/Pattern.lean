import StagingAudit.Text.Marks

/-!
# Patterns for paths

What the patterns of ignore files come down to: single bytes and runs of bytes of a class, one
after the other or one instead of the other. They are matched byte by byte, so a character outside
ASCII counts as many times as it has bytes.
-/

namespace StagingAudit.Ignore

/-- The byte of a separator. -/
def separator : UInt8 := 47

/-- Bytes of some ranges, or those outside them. -/
structure ByteClass where
  /-- whether the bytes outside the ranges are meant -/
  negated : Bool := false
  /-- least and greatest bytes of the ranges -/
  ranges : List (UInt8 × UInt8) := []
  deriving DecidableEq, Repr

namespace ByteClass

/-- Whether the class holds a byte. -/
def holds (c : ByteClass) (b : UInt8) : Bool :=
  (c.ranges.any fun (low, high) => low ≤ b && b ≤ high) != c.negated

/-- Only this byte. -/
def only (b : UInt8) : ByteClass := { ranges := [(b, b)] }

/-- Every byte. -/
def all : ByteClass := { negated := true }

/-- Every byte but a separator. -/
def inside : ByteClass := { negated := true, ranges := [(separator, separator)] }

end ByteClass

/-- A pattern for the bytes of a path. -/
inductive Pattern where
  /-- no bytes -/
  | nothing
  /-- one byte of a class -/
  | one (c : ByteClass)
  /-- any number of bytes of a class -/
  | many (c : ByteClass)
  /-- one pattern after the other -/
  | andThen (p q : Pattern)
  /-- one pattern or the other -/
  | orElse (p q : Pattern)
  deriving DecidableEq, Repr

namespace Pattern

/-- Exactly these bytes. -/
def literal : List UInt8 → Pattern
  | [] => .nothing
  | [b] => .one (.only b)
  | b :: bytes => .andThen (.one (.only b)) (literal bytes)

/-- A separator. -/
def slash : Pattern := .one (.only separator)

/-- Anything at all. -/
def anything : Pattern := .many .all

/-- Nothing, or anything that ends with a separator. -/
def directories : Pattern := .orElse .nothing (.andThen anything slash)

/-- Moves the marks of a reader over a pattern. -/
def advance (text : List UInt8) : Pattern → Marks → Marks
  | .nothing, marks => marks
  | .one c, marks => marks.step c.holds text
  | .many c, marks => marks.spread c.holds text
  | .andThen p q, marks => q.advance text (p.advance text marks)
  | .orElse p q, marks => (p.advance text marks).union (q.advance text marks)

/-- Whether the pattern matches the whole path. -/
def isMatch (p : Pattern) (path : List UInt8) : Bool := (p.advance path (Marks.atStart path)).atEnd

/-! ## What matching means -/

/-- Whether the pattern stands for these bytes. -/
def Matches : Pattern → List UInt8 → Prop
  | .nothing, bytes => bytes = []
  | .one c, bytes => ∃ b, c.holds b = true ∧ bytes = [b]
  | .many c, bytes => ∀ b ∈ bytes, c.holds b = true
  | .andThen p q, bytes => ∃ first second, bytes = first ++ second ∧ p.Matches first ∧
      q.Matches second
  | .orElse p q, bytes => p.Matches bytes ∨ q.Matches bytes

theorem fits_advance {text : List UInt8} (p : Pattern) {marks : Marks} (h : marks.Fits text) :
    (p.advance text marks).Fits text := by
  induction p generalizing marks with
  | nothing => exact h
  | one c => exact Marks.fits_stepFrom h
  | many c => exact Marks.fits_spreadFrom h
  | andThen p q ihp ihq => exact ihq (ihp h)
  | orElse p q ihp ihq => exact Marks.fits_union (ihp h) (ihq h)

/-- A pattern leaves what comes after bytes that it stands for. -/
theorem mem_rests_advance {text rest : List UInt8} (p : Pattern) {marks : Marks}
    (h : marks.Fits text) :
    rest ∈ Marks.rests text (p.advance text marks) ↔
      ∃ bytes, p.Matches bytes ∧ bytes ++ rest ∈ Marks.rests text marks := by
  induction p generalizing marks rest with
  | nothing => simp [advance, Matches]
  | one c =>
    simp only [advance, Marks.mem_rests_step h, Matches]
    grind
  | many c => simp [advance, Marks.mem_rests_spread h, Matches]
  | andThen p q ihp ihq =>
    rw [advance, ihq (fits_advance p h)]
    simp only [ihp h, Matches]
    constructor
    · rintro ⟨second, hq, first, hp, hmem⟩
      exact ⟨first ++ second, ⟨first, second, rfl, hp, hq⟩, by simpa using hmem⟩
    · rintro ⟨_, ⟨first, second, rfl, hp, hq⟩, hmem⟩
      exact ⟨second, hq, first, hp, by simpa using hmem⟩
  | orElse p q ihp ihq =>
    rw [advance, Marks.mem_rests_union (fits_advance p h) (fits_advance q h), ihp h, ihq h]
    simp only [Matches, or_and_right, exists_or]

theorem isMatch_iff {p : Pattern} {path : List UInt8} :
    p.isMatch path = true ↔ p.Matches path := by
  rw [isMatch, ← Marks.nil_mem_rests (fits_advance p (Marks.fits_atStart path)),
    mem_rests_advance p (Marks.fits_atStart path)]
  simp [Marks.mem_rests_atStart]

end Pattern

end StagingAudit.Ignore
