import StagingAudit.Text.Bytes
import StagingAudit.Text.Lines

/-!
# Byte offsets

Offsets count UTF-8 bytes, and texts are lists of characters. The lemmas here go between the two
views: what a byte of an encoded text says about the character it belongs to, where the boundaries
between characters lie, and **the line of an offset is one more than the number of line-feed bytes
before it**, whether or not the offset is a boundary. The last section is about texts that are cut
at a separator, as they are into lines.
-/

namespace StagingAudit

/-! ## Encoded texts -/

@[simp]
theorem encode_nil : encode [] = [] := rfl

@[simp]
theorem encode_cons (c : Char) (cs : List Char) :
    encode (c :: cs) = String.utf8EncodeChar c ++ encode cs := rfl

@[simp]
theorem encode_append (a b : List Char) : encode (a ++ b) = encode a ++ encode b :=
  List.flatMap_append

@[simp]
theorem length_encode (cs : List Char) : (encode cs).length = byteLength cs := by
  induction cs with
  | nil => rfl
  | cons c cs ih => rw [encode_cons, List.length_append, ih, byteLength_cons,
      String.length_utf8EncodeChar]

/-- A byte of a character is the character itself in ASCII and a high byte beyond it. -/
theorem byte_of_mem_encodeChar {b : UInt8} {c : Char} (h : b ∈ String.utf8EncodeChar c) :
    (c.toNat ≤ 0x7F ∧ b.toNat = c.toNat) ∨ 0x80 ≤ b.toNat := by
  unfold String.utf8EncodeChar at h
  simp only [show c.val.toNat = c.toNat from rfl] at h
  split at h
  · next hascii =>
    obtain rfl := List.mem_singleton.1 h
    refine .inl ⟨hascii, ?_⟩
    rw [UInt8.toNat_ofNat']
    omega
  · right
    split at h
    · simp only [List.mem_cons, List.not_mem_nil, or_false] at h
      rcases h with rfl | rfl <;> rw [UInt8.toNat_ofNat'] <;> omega
    · split at h
      · simp only [List.mem_cons, List.not_mem_nil, or_false] at h
        rcases h with rfl | rfl | rfl <;> rw [UInt8.toNat_ofNat'] <;> omega
      · simp only [List.mem_cons, List.not_mem_nil, or_false] at h
        rcases h with rfl | rfl | rfl | rfl <;> rw [UInt8.toNat_ofNat'] <;> omega

/-- An ASCII byte of a character is the whole character. -/
theorem eq_of_mem_encodeChar {b : UInt8} {c : Char} (h : b ∈ String.utf8EncodeChar c)
    (hb : b.toNat ≤ 0x7F) : c = Char.ofNat b.toNat := by
  rcases byte_of_mem_encodeChar h with ⟨-, heq⟩ | hhigh
  · rw [heq, Char.ofNat_toNat]
  · omega

/-! ## Boundaries

An offset may have been measured in another text, so it need not be a boundary. Where it is one it
splits the text in one way only, and this is how places in two texts are compared that have the same
number of bytes before them. -/

/-- Whether an offset lies between two characters of a text, or at one of its ends. -/
def IsBoundary (text : List Char) (offset : Nat) : Prop :=
  ∃ before after, text = before ++ after ∧ byteLength before = offset

/-- The boundaries of two texts together are those of the first, and those of the second moved by
the length of the first. -/
theorem isBoundary_append_iff {a b : List Char} {offset : Nat} :
    IsBoundary (a ++ b) offset ↔
      IsBoundary a offset ∨ ∃ rest, IsBoundary b rest ∧ offset = byteLength a + rest := by
  refine ⟨?_, ?_⟩
  · rintro ⟨before, after, htext, rfl⟩
    rcases List.append_eq_append_iff.1 htext with ⟨more, rfl, hb⟩ | ⟨more, ha, -⟩
    · exact .inr ⟨byteLength more, ⟨more, after, hb, rfl⟩, byteLength_append ..⟩
    · exact .inl ⟨before, more, ha, rfl⟩
  · rintro (⟨before, after, rfl, rfl⟩ | ⟨rest, ⟨before, after, rfl, rfl⟩, rfl⟩)
    · exact ⟨before, after ++ b, by rw [List.append_assoc], rfl⟩
    · exact ⟨a ++ before, after, by rw [List.append_assoc], byteLength_append ..⟩

/-- A text without bytes is empty. -/
theorem eq_nil_of_byteLength {cs : List Char} (h : byteLength cs = 0) : cs = [] := by
  cases cs with
  | nil => rfl
  | cons c cs =>
    have := c.utf8Size_pos
    rw [byteLength_cons] at h
    omega

/-- An offset splits a text in one way only. -/
theorem eq_of_byteLength_eq {a b x y : List Char} (h : a ++ x = b ++ y)
    (hlen : byteLength a = byteLength b) : a = b ∧ x = y := by
  rcases List.append_eq_append_iff.1 h with ⟨more, rfl, rfl⟩ | ⟨more, rfl, rfl⟩
  · rw [byteLength_append] at hlen
    obtain rfl := @eq_nil_of_byteLength more (by omega)
    simp
  · rw [byteLength_append] at hlen
    obtain rfl := @eq_nil_of_byteLength more (by omega)
    simp

/-- Of two ways to split a text, the part that is not longer starts the other one. -/
theorem exists_append_of_byteLength_le {a b x y : List Char} (h : a ++ x = b ++ y)
    (hle : byteLength b ≤ byteLength a) : ∃ more, a = b ++ more ∧ y = more ++ x := by
  rcases List.append_eq_append_iff.1 h with ⟨more, rfl, rfl⟩ | hlonger
  · rw [byteLength_append] at hle
    obtain rfl := @eq_nil_of_byteLength more (by omega)
    exact ⟨[], by simp, by simp⟩
  · exact hlonger

/-- The bytes of a text from one offset up to another. -/
def bytesBetween (text : List Char) (i j : Nat) : List UInt8 := ((encode text).take j).drop i

/-- The bytes between the ends of a part are those of the part. -/
theorem bytesBetween_append {before part after : List Char} :
    bytesBetween (before ++ (part ++ after)) (byteLength before)
      (byteLength before + byteLength part) = encode part := by
  have hlen : (encode before ++ encode part).length = byteLength before + byteLength part := by
    rw [List.length_append, length_encode, length_encode]
  rw [bytesBetween, encode_append, encode_append, ← List.append_assoc, List.take_left' hlen,
    List.drop_left' (length_encode before)]

/-! ## Lines -/

/-- The line feeds before an offset are the line-feed bytes before it. -/
theorem newlinesBefore_eq_count (text : List Char) (offset : Nat) :
    newlinesBefore text offset = ((encode text).take offset).count 0x0A := by
  induction text generalizing offset with
  | nil => simp [newlinesBefore]
  | cons c cs ih =>
    cases offset with
    | zero => simp [newlinesBefore]
    | succ n =>
      rw [newlinesBefore, ih, encode_cons, List.take_append, List.count_append,
        String.length_utf8EncodeChar]
      congr 1
      by_cases hc : c = '\n'
      · rw [if_pos hc, hc, show String.utf8EncodeChar '\n' = [0x0A] from rfl, List.take_succ_cons,
          List.take_nil, List.count_singleton_self]
      · -- no byte of another character is a line feed
        rw [if_neg hc, eq_comm, List.count_eq_zero]
        intro hmem
        exact hc (eq_of_mem_encodeChar (List.mem_of_mem_take hmem) (by decide))

/-- The line of an offset counts the line-feed bytes before it, from one. -/
theorem lineAt_eq_count (text : List Char) (offset : Nat) :
    lineAt text offset = ((encode text).take offset).count 0x0A + 1 := by
  rw [lineAt, newlinesBefore_eq_count]

/-! ## Pieces between separators -/

section Split

variable {α : Type} [DecidableEq α] {sep : α} {a : List α}

theorem splitAt_of_not_mem (h : sep ∉ a) : splitAt sep a = [a] := by
  induction a with
  | nil => rfl
  | cons c a ih =>
    rw [List.mem_cons, not_or] at h
    rw [splitAt, if_neg (Ne.symm h.1), ih h.2]

/-- A separator parts the pieces before it from those behind it. -/
theorem splitAt_append (a b : List α) :
    splitAt sep (a ++ sep :: b) = splitAt sep a ++ splitAt sep b := by
  induction a with
  | nil => exact if_pos rfl
  | cons c a ih =>
    rw [List.cons_append, splitAt, splitAt, ih]
    by_cases hc : c = sep
    · rw [if_pos hc, if_pos hc, List.cons_append]
    · rw [if_neg hc, if_neg hc]
      cases hpieces : splitAt sep a with
      | nil => exact absurd hpieces (splitAt_ne_nil sep a)
      | cons piece pieces => rfl

/-- What holds of a piece without the separator, and of two texts with a separator between them
when it holds of both, holds of every text. -/
@[elab_as_elim]
theorem splitAt_induction (sep : α) {motive : List α → Prop}
    (piece : ∀ a, sep ∉ a → motive a)
    (append : ∀ a b, motive a → motive b → motive (a ++ sep :: b)) (cs : List α) : motive cs := by
  induction hlen : cs.length using Nat.strongRecOn generalizing cs with
  | ind n ih =>
    by_cases hmem : sep ∈ cs
    · obtain ⟨a, b, rfl⟩ := List.append_of_mem hmem
      rw [List.length_append, List.length_cons] at hlen
      exact append a b (ih _ (by omega) a rfl) (ih _ (by omega) b rfl)
    · exact piece cs hmem

/-- There is one piece more than there are separators. -/
theorem length_splitAt (cs : List α) : (splitAt sep cs).length = cs.count sep + 1 := by
  induction cs using splitAt_induction sep with
  | piece a hsep => rw [splitAt_of_not_mem hsep, List.count_eq_zero.2 hsep]; rfl
  | append a b iha ihb =>
    rw [splitAt_append, List.length_append, iha, ihb, List.count_append, List.count_cons_self]
    omega

/-- A piece does not hold the separator. -/
theorem not_mem_of_mem_splitAt {cs piece : List α} (h : piece ∈ splitAt sep cs) : sep ∉ piece := by
  induction cs generalizing piece with
  | nil =>
    obtain rfl := List.mem_singleton.1 h
    exact List.not_mem_nil
  | cons c cs ih =>
    rw [splitAt] at h
    split at h
    · rcases List.mem_cons.1 h with rfl | h
      · exact List.not_mem_nil
      · exact ih h
    · next hc =>
      split at h
      · next first later hsplit =>
        rw [hsplit] at ih
        rcases List.mem_cons.1 h with rfl | h
        · rw [List.mem_cons, not_or]
          exact ⟨Ne.symm hc, ih (.head _)⟩
        · exact ih (.tail _ h)
      · next hsplit => exact absurd hsplit (splitAt_ne_nil sep cs)

/-- What neither the pieces nor the separator hold, they do not hold when they are joined. -/
theorem not_mem_intercalate {β : Type} {sep : List β} {pieces : List (List β)} {x : β}
    (hsep : x ∉ sep) (hpieces : ∀ piece ∈ pieces, x ∉ piece) : x ∉ sep.intercalate pieces := by
  induction pieces with
  | nil => exact List.not_mem_nil
  | cons piece pieces ih =>
    have hpiece := hpieces piece (by simp)
    cases pieces with
    | nil => rwa [List.intercalate_singleton]
    | cons next pieces =>
      have hlater := ih fun later hlater => hpieces later (List.mem_cons_of_mem piece hlater)
      simp only [List.intercalate_cons_cons, List.mem_append, not_or]
      exact ⟨⟨hpiece, hsep⟩, hlater⟩

end Split

/-- A line does not hold a line feed. -/
theorem newline_not_mem_textLines {text line : List Char} (h : line ∈ textLines text) :
    '\n' ∉ line := by
  rw [textLines, linesAt, List.mem_append] at h
  rcases h with h | h
  · obtain ⟨piece, hpiece, rfl⟩ := List.mem_map.1 h
    have hfeed := not_mem_of_mem_splitAt (List.dropLast_subset _ hpiece)
    split
    · exact fun hmem => hfeed (List.dropLast_subset _ hmem)
    · exact hfeed
  · split at h
    · cases h
    · obtain ⟨last, hlast⟩ : ∃ last, (splitAt '\n' text).getLast? = some last :=
        Option.ne_none_iff_exists'.1 (mt List.getLast?_eq_none_iff.1 (splitAt_ne_nil _ text))
      rw [List.getLastD_eq_getLast?, hlast, Option.getD_some, List.mem_singleton] at h
      rw [h]
      exact not_mem_of_mem_splitAt (List.mem_of_getLast? hlast)

/-- What stands between the last two line feeds of a text is its last line. -/
theorem getLast?_textLines {line : List Char} (hfeed : '\n' ∉ line)
    (hreturn : line.getLast? ≠ some '\r') (before : List Char) :
    (textLines (before ++ '\n' :: (line ++ ['\n']))).getLast? = some line := by
  have hpieces : splitAt '\n' (before ++ '\n' :: (line ++ ['\n'])) =
      (splitAt '\n' before ++ [line]) ++ [[]] := by
    rw [splitAt_append, splitAt_append, splitAt_of_not_mem hfeed, List.append_assoc]
    rfl
  rw [textLines, linesAt, hpieces]
  simp [hreturn]

end StagingAudit
