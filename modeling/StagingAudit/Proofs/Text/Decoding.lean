import StagingAudit.Proofs.Text.Offset

/-!
# Lines of decoded files

A decoder that replaces what is invalid could eat a line break: a character that has begun might
take the next byte along. It does not. A byte that an unfinished character can take lies beyond
ASCII, and no character of several bytes is a line feed, whatever its bits; both are kept by every
byte (`FeedFree.stepByte`). So a line-feed byte always ends what stands before it, is a line feed
itself, and leaves nothing unfinished behind (`stepByte_feed`).

From one byte the step goes to whole files: decoding is done line by line. **The lines of a decoded
file are its decoded lines** (`splitAt_decodeLossy`), and there are as many line feeds in it as
line-feed bytes in the file (`count_decodeLossy`).
-/

namespace StagingAudit

/-! ## One byte -/

/-- The byte of a line feed. -/
def feedByte : UInt8 := 0x0A

/-- What a byte comes to when no character is unfinished: what is written, and the character that
is unfinished then. -/
def Lead.written : Lead → List (Option Char) × Option Unfinished
  | whole c => ([some c], none)
  | start u => ([], some u)
  | invalid => ([none], none)

/-- What a byte comes to: what is written, and the character that is unfinished then. -/
def stepByte : Option Unfinished → UInt8 → List (Option Char) × Option Unfinished
  | none, b => (Lead.ofByte b).written
  | some u, b =>
    if u.low ≤ b.toNat ∧ b.toNat ≤ u.high then
      let bits := u.bits * 64 + (b.toNat - 0x80)
      if u.owed ≤ 1 then ([some (Char.ofNat bits)], none)
      else ([], some ⟨u.owed - 1, 0x80, 0xBF, bits⟩)
    else (none :: (Lead.ofByte b).written.1, (Lead.ofByte b).written.2)

/-- Decoding takes one byte after the other. -/
theorem decodeFrom_cons (state : Option Unfinished) (b : UInt8) (bs : List UInt8) :
    decodeFrom state (b :: bs) = (stepByte state b).1 ++ decodeFrom (stepByte state b).2 bs := by
  cases state with
  | none =>
    rw [decodeFrom, stepByte]
    cases Lead.ofByte b <;> rfl
  | some u =>
    rw [decodeFrom, stepByte]
    split
    · dsimp only
      split <;> rfl
    · cases Lead.ofByte b <;> rfl

/-! ## Line feeds

`FeedFree` is the invariant of the decoder, and each of its parts is against one danger. The next
byte is beyond ASCII, so a line feed is not taken along as a part of a character; and the bits are
more than those of a line feed, so none is made up out of several bytes, as a long encoding of it
would be. A lead byte has bounds that see to both, and every byte that continues the character keeps
them. -/

/-- Only the code of a line feed is that of a line feed; codes that are no characters stand for
NUL. -/
theorem eq_of_ofNat_eq_newline {n : Nat} (h : Char.ofNat n = '\n') : n = 0x0A := by
  rw [Char.ofNat] at h
  by_cases hvalid : n.isValidChar
  · rw [dif_pos hvalid] at h
    exact congrArg Char.toNat h
  · rw [dif_neg hvalid] at h
    exact absurd h (by decide)

/-- An unfinished character that keeps line feeds apart: it takes no ASCII byte, and the bits that
it comes to with the next byte are more than the code of a line feed. -/
structure Unfinished.FeedFree (u : Unfinished) : Prop where
  /-- the next byte is beyond ASCII -/
  low : 0x80 ≤ u.low
  /-- and brings the bits beyond the line feed -/
  bits : 0x0A < u.bits * 64 + (u.low - 0x80)

namespace Unfinished.FeedFree

variable {u : Unfinished} {n : Nat}

/-- A character that has taken a byte and is still unfinished. -/
theorem next (h : u.FeedFree) (hn : u.low ≤ n) :
    FeedFree ⟨u.owed - 1, 0x80, 0xBF, u.bits * 64 + (n - 0x80)⟩ := by
  have hbits := h.bits
  refine ⟨Nat.le_refl _, ?_⟩
  dsimp only
  omega

/-- A character of several bytes is no line feed. -/
theorem ofNat_ne (h : u.FeedFree) (hn : u.low ≤ n) :
    Char.ofNat (u.bits * 64 + (n - 0x80)) ≠ '\n' := by
  intro heq
  have hbits := h.bits
  have hcode := eq_of_ofNat_eq_newline heq
  omega

end Unfinished.FeedFree

/-- A byte that starts a character of several bytes starts one that keeps line feeds apart. -/
theorem Lead.feedFree_of_ofByte {b : UInt8} {u : Unfinished} (h : Lead.ofByte b = .start u) :
    u.FeedFree := by
  unfold Lead.ofByte at h
  dsimp only at h
  -- the bounds of each kind of lead byte are such that no short character has a long encoding
  repeat' split at h
  all_goals cases h
  all_goals
    constructor
    all_goals
      dsimp only
      omega

/-- Of the bytes that are characters by themselves one is a line feed. -/
theorem Lead.eq_of_ofByte {b : UInt8} (h : Lead.ofByte b = .whole '\n') : b = feedByte := by
  unfold Lead.ofByte at h
  dsimp only at h
  repeat' split at h
  case isTrue =>
    injection h with hc
    exact UInt8.toNat_inj.1 (eq_of_ofNat_eq_newline hc)
  all_goals cases h

/-- What is unfinished keeps line feeds apart. -/
def FeedFree (state : Option Unfinished) : Prop := ∀ u ∈ state, u.FeedFree

theorem feedFree_none : FeedFree none := by
  intro u hu
  cases hu

variable {state : Option Unfinished} {a b bs : List UInt8}

theorem Lead.feedFree_written (b : UInt8) : FeedFree (Lead.ofByte b).written.2 := by
  cases hlead : Lead.ofByte b with
  | start u =>
    intro v hv
    cases hv
    exact Lead.feedFree_of_ofByte hlead
  | _ => exact feedFree_none

/-- Every byte keeps it so. -/
theorem FeedFree.stepByte (h : FeedFree state) (b : UInt8) : FeedFree (stepByte state b).2 := by
  cases state with
  | none => exact Lead.feedFree_written b
  | some u =>
    rw [StagingAudit.stepByte]
    split
    · next hrange =>
      dsimp only
      split
      · exact feedFree_none
      · intro v hv
        cases hv
        exact (h u rfl).next hrange.1
    · exact Lead.feedFree_written b

/-- A line feed is written at the byte of one and nowhere else. -/
theorem Lead.mem_written_iff (b : UInt8) :
    some '\n' ∈ (Lead.ofByte b).written.1 ↔ b = feedByte := by
  constructor
  · intro hmem
    cases hlead : Lead.ofByte b with
    | whole c =>
      rw [hlead] at hmem
      obtain rfl := Option.some.inj (List.mem_singleton.1 hmem)
      exact Lead.eq_of_ofByte hlead
    | start u =>
      rw [hlead] at hmem
      cases hmem
    | invalid =>
      rw [hlead] at hmem
      cases List.mem_singleton.1 hmem
  · rintro rfl
    exact .head _

/-- No other byte brings a line feed about. -/
theorem eq_of_mem_stepByte (h : FeedFree state) {b : UInt8}
    (hmem : some '\n' ∈ (stepByte state b).1) : b = feedByte := by
  cases state with
  | none => exact (Lead.mem_written_iff b).1 hmem
  | some u =>
    rw [stepByte] at hmem
    split at hmem
    · next hrange =>
      dsimp only at hmem
      split at hmem
      · have hchar := Option.some.inj (List.mem_singleton.1 hmem)
        exact absurd hchar.symm ((h u rfl).ofNat_ne hrange.1)
      · cases hmem
    · rcases List.mem_cons.1 hmem with heq | hmem
      · cases heq
      · exact (Lead.mem_written_iff b).1 hmem

/-- The byte of a line feed ends what is unfinished, and leaves nothing unfinished behind. -/
theorem stepByte_feed (h : FeedFree state) :
    stepByte state feedByte = (decodeFrom state [] ++ [some '\n'], none) := by
  cases state with
  | none => rfl
  | some u =>
    have hlow := (h u rfl).low
    have hrange : ¬(u.low ≤ feedByte.toNat ∧ feedByte.toNat ≤ u.high) := by
      have hfeed : feedByte.toNat = 0x0A := rfl
      omega
    rw [stepByte, if_neg hrange]
    rfl

/-! ## Files -/

/-- A file is decoded up to a line feed and behind it. -/
theorem decodeFrom_append_feed (h : FeedFree state) (a b : List UInt8) :
    decodeFrom state (a ++ feedByte :: b) =
      decodeFrom state a ++ some '\n' :: decodeFrom none b := by
  induction a generalizing state with
  | nil =>
    rw [List.nil_append, decodeFrom_cons, stepByte_feed h, List.append_assoc]
    rfl
  | cons x a ih =>
    rw [List.cons_append, decodeFrom_cons, ih (h.stepByte x), ← List.append_assoc,
      ← decodeFrom_cons]

/-- Without line-feed bytes there is no line feed. -/
theorem feed_mem_of_mem_decodeFrom (h : FeedFree state) (hmem : some '\n' ∈ decodeFrom state bs) :
    feedByte ∈ bs := by
  induction bs generalizing state with
  | nil =>
    cases state with
    | none => cases hmem
    | some u => cases List.mem_singleton.1 hmem
  | cons b bs ih =>
    rw [decodeFrom_cons, List.mem_append] at hmem
    rcases hmem with hmem | hmem
    · rw [eq_of_mem_stepByte h hmem]
      exact .head _
    · exact .tail _ (ih (h.stepByte b) hmem)

theorem decodeLossy_append_feed (a b : List UInt8) :
    decodeLossy (a ++ feedByte :: b) = decodeLossy a ++ '\n' :: decodeLossy b := by
  rw [decodeLossy, decodeFrom_append_feed feedFree_none, List.map_append, List.map_cons]
  rfl

theorem feed_mem_of_mem_decodeLossy (h : '\n' ∈ decodeLossy bs) : feedByte ∈ bs := by
  obtain ⟨c, hc, heq⟩ := List.mem_map.1 h
  cases c with
  | none => exact absurd heq (by decide)
  | some c =>
    obtain rfl : c = '\n' := heq
    exact feed_mem_of_mem_decodeFrom feedFree_none hc

/-- **The lines of a decoded file are its decoded lines.** -/
theorem splitAt_decodeLossy (bs : List UInt8) :
    splitAt '\n' (decodeLossy bs) = (splitAt feedByte bs).map decodeLossy := by
  induction bs using splitAt_induction feedByte with
  | piece bs hfeed =>
    rw [splitAt_of_not_mem hfeed, splitAt_of_not_mem (mt feed_mem_of_mem_decodeLossy hfeed)]
    rfl
  | append a b iha ihb =>
    rw [decodeLossy_append_feed, splitAt_append, splitAt_append, List.map_append, iha, ihb]

/-- There are as many line feeds in a decoded file as line-feed bytes in the file. -/
theorem count_decodeLossy (bs : List UInt8) :
    (decodeLossy bs).count '\n' = bs.count feedByte := by
  have hlines := congrArg List.length (splitAt_decodeLossy bs)
  rw [List.length_map, length_splitAt, length_splitAt] at hlines
  exact Nat.add_right_cancel hlines

end StagingAudit
