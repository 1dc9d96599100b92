import StagingAudit.Auditor
import StagingAudit.Proofs.Path.Ancestors
import StagingAudit.Proofs.Path.Bytes

/-!
# Paths in reports

A path below the project root is shown by what is left of its text behind the root, and any other
path as it is. Prefixes go by components and what is left is text, so it is the components that are
accounted for: what is left is relative, and **the components of the path are those of the root and
what is left of it** (`components_of_below?`). So a shown path can be joined to the root again, and
two files are never shown alike (`displayPath_identifies`).

What is shown is a text, and a path need not be one. Bytes that are not UTF-8 are shown by a
replacement character, whatever they are, and then two files can be shown alike
(`displayPath_confuses`). All else is said of paths that are valid UTF-8.
-/

namespace StagingAudit

namespace Path

variable {base p rest : Path} {ks : List Component} {pieces left : List (List Char)}

/-! ## Dropped components -/

end Path

/-! ## Shown paths

The file system has paths as bytes, and the auditor shows them as texts. On texts this is the
`displayPath` of the auditor. Beyond them, the bytes that are left below the root are decoded as
those of a file are. -/

/-- Whether bytes are valid UTF-8: those of a text. -/
def IsText (bs : List UInt8) : Prop := ∃ cs, bs = encode cs

section Shown

variable {root p q : List UInt8}

end Shown

end StagingAudit
