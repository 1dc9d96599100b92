/-!
# UTF-8

Texts are lists of characters; files are lists of bytes. `encode` and `decode` go between them,
`byteLength` is the measure of every offset in the project.

Decoding is a machine that takes one byte at a time. Between characters it holds nothing; inside
one it remembers how many bytes are owed and between which bounds the next one lies, so that it
can refuse at the first byte that rules the character out. Each maximal run of bytes that starts a
character and does not finish it counts as one invalid piece: `decodeLossy` writes one replacement
character for it, `decode?` refuses the whole text.
-/

namespace StagingAudit

/-- The length of a text in UTF-8 bytes. -/
def byteLength (cs : List Char) : Nat := cs.foldr (fun c n => c.utf8Size + n) 0

/-- The UTF-8 bytes of a text. -/
def encode (cs : List Char) : List UInt8 := cs.flatMap String.utf8EncodeChar

/-- A character that has begun and is not finished. -/
structure Unfinished where
  /-- how many bytes are owed -/
  owed : Nat
  /-- the least value of the next byte -/
  low : Nat
  /-- the greatest value of the next byte -/
  high : Nat
  /-- the bits read so far -/
  bits : Nat

/-- What a byte does when no character is unfinished. -/
inductive Lead where
  /-- it is a character by itself -/
  | whole (c : Char)
  /-- it starts a character -/
  | start (u : Unfinished)
  /-- no character starts with it -/
  | invalid

/-- The part of a byte in the encoding when no character is unfinished. -/
def Lead.ofByte (b : UInt8) : Lead :=
  let n := b.toNat
  if n < 0x80 then .whole (Char.ofNat n)
  else if n < 0xC2 then .invalid
  else if n < 0xE0 then .start ⟨1, 0x80, 0xBF, n - 0xC0⟩
  else if n = 0xE0 then .start ⟨2, 0xA0, 0xBF, 0⟩
  else if n = 0xED then .start ⟨2, 0x80, 0x9F, 0xD⟩
  else if n < 0xF0 then .start ⟨2, 0x80, 0xBF, n - 0xE0⟩
  else if n = 0xF0 then .start ⟨3, 0x90, 0xBF, 0⟩
  else if n < 0xF4 then .start ⟨3, 0x80, 0xBF, n - 0xF0⟩
  else if n = 0xF4 then .start ⟨3, 0x80, 0x8F, 4⟩
  else .invalid

/-- The characters of a byte sequence, with `none` for each invalid piece; `u` is the character
that is unfinished when the sequence starts. -/
def decodeFrom : Option Unfinished → List UInt8 → List (Option Char)
  | none, [] => []
  | some _, [] => [none]
  | none, b :: bs =>
    match Lead.ofByte b with
    | .whole c => some c :: decodeFrom none bs
    | .start u => decodeFrom (some u) bs
    | .invalid => none :: decodeFrom none bs
  | some u, b :: bs =>
    if u.low ≤ b.toNat ∧ b.toNat ≤ u.high then
      let bits := u.bits * 64 + (b.toNat - 0x80)
      if u.owed ≤ 1 then some (Char.ofNat bits) :: decodeFrom none bs
      else decodeFrom (some ⟨u.owed - 1, 0x80, 0xBF, bits⟩) bs
    else
      none ::
        match Lead.ofByte b with
        | .whole c => some c :: decodeFrom none bs
        | .start v => decodeFrom (some v) bs
        | .invalid => none :: decodeFrom none bs

/-- The character that stands for an invalid piece. -/
def replacement : Char := Char.ofNat 0xFFFD

/-- The text of a byte sequence, with one replacement character for each invalid piece. -/
def decodeLossy (bs : List UInt8) : List Char := (decodeFrom none bs).map (·.getD replacement)

/-- The text of a byte sequence, if the sequence is valid. -/
def decode? (bs : List UInt8) : Option (List Char) := (decodeFrom none bs).mapM id

@[simp]
theorem byteLength_nil : byteLength [] = 0 := rfl

@[simp]
theorem byteLength_cons (c : Char) (cs : List Char) :
    byteLength (c :: cs) = c.utf8Size + byteLength cs := rfl

@[simp]
theorem byteLength_append (a b : List Char) :
    byteLength (a ++ b) = byteLength a + byteLength b := by
  induction a with
  | nil => simp
  | cons c cs ih => rw [List.cons_append, byteLength_cons, byteLength_cons, ih, Nat.add_assoc]

end StagingAudit
