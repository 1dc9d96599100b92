/-!
# White space

The class of white-space characters (Unicode's `White_Space`: spaces, tabs, line breaks, the
no-break and ideographic spaces, but not the zero-width ones) and the two ways a text is freed of
them at its ends.
-/

namespace StagingAudit

/-- White space: the 25 characters of the property `White_Space`. -/
def isWhite (c : Char) : Bool :=
  let n := c.toNat
  (9 ≤ n && n ≤ 13) || n == 0x20 || n == 0x85 || n == 0xA0 || n == 0x1680 ||
    (0x2000 ≤ n && n ≤ 0x200A) || n == 0x2028 || n == 0x2029 || n == 0x202F || n == 0x205F ||
    n == 0x3000

/-- The text from its first character that is not white space. -/
def skipWhite (cs : List Char) : List Char := cs.dropWhile isWhite

/-- The text without the characters of a class at its end. -/
def dropTrailing (p : Char → Bool) (cs : List Char) : List Char := (cs.reverse.dropWhile p).reverse

/-- The text without the characters of a class at either end. -/
def trimClass (p : Char → Bool) (cs : List Char) : List Char := dropTrailing p (cs.dropWhile p)

/-- The text without white space at either end. -/
def trimWhite (cs : List Char) : List Char := trimClass isWhite cs

end StagingAudit
