import StagingAudit.Directive
import StagingAudit.Proofs.Text.Offset
import StagingAudit.Proofs.Text.Recognition

/-!
# Stripping as masking

Stripping runs three passes, each over what the one before it left. `Masks raw out` is what all of
them have in common: stretches of `raw` that start with an opening and end with a closing brace
are blanked in `out`, and everything else stays. One pass masks, and **masks compose**: a later
stretch starts and ends at braces that no earlier pass has touched, so it takes in earlier
stretches whole or not at all.

Byte by byte this gives the contract of stripping (`stripDirectives_masks_bytes`): the same length,
every byte the old one or a space, the line breaks where they were, and the boundaries of the raw
text still boundaries.
-/

namespace StagingAudit

/-- `out` is `raw` with some stretches from an opening to a closing brace blanked. A stretch is
blanked as a whole, and nothing is asked of what stands between its braces, so stretches that have
been blanked by several passes are one like any other. -/
inductive Masks : List Char → List Char → Prop where
  /-- nothing is left -/
  | nil : Masks [] []
  /-- a character stays -/
  | keep {raw out : List Char} (c : Char) : Masks raw out → Masks (c :: raw) (c :: out)
  /-- a stretch between braces is blanked -/
  | span {raw out : List Char} (inner : List Char) : Masks raw out →
      Masks (('\x7b' :: (inner ++ ['\x7d'])) ++ raw)
        (blank ('\x7b' :: (inner ++ ['\x7d'])) ++ out)

/-- The characters that a directive starts and ends with. -/
def braces : List Char := ['\x7b', '\x7d']

/-! ## Blank texts -/

/-- The characters that blanking writes. -/
def isBlank (c : Char) : Bool := c == ' ' || c == '\n' || c == '\r'

theorem isBlank_of_mem_blankChar {c d : Char} (h : d ∈ blankChar c) : isBlank d = true := by
  unfold blankChar at h
  split at h
  · next hc =>
    obtain rfl := List.mem_singleton.1 h
    rcases hc with rfl | rfl <;> decide
  · obtain ⟨-, rfl⟩ := List.mem_replicate.1 h
    decide

theorem isBlank_of_mem_blank {d : Char} {span : List Char} (h : d ∈ blank span) :
    isBlank d = true := by
  obtain ⟨c, -, hd⟩ := List.mem_flatMap.1 h
  exact isBlank_of_mem_blankChar hd

@[simp]
theorem blank_cons (c : Char) (cs : List Char) : blank (c :: cs) = blankChar c ++ blank cs := rfl

@[simp]
theorem blank_append (a b : List Char) : blank (a ++ b) = blank a ++ blank b :=
  List.flatMap_append

/-- Blank texts are left as they are by blanking. -/
theorem blank_eq_self {cs : List Char} (h : ∀ c ∈ cs, isBlank c = true) : blank cs = cs := by
  induction cs with
  | nil => rfl
  | cons c cs ih =>
    have hc : blankChar c = [c] := by
      have hblank := h c (by simp)
      simp only [isBlank, Bool.or_eq_true, beq_iff_eq] at hblank
      rcases hblank with (rfl | rfl) | rfl <;> rfl
    rw [blank_cons, hc, ih fun d hd => h d (List.mem_cons_of_mem c hd), List.singleton_append]

/-- A part without blank characters does not meet a blank one. -/
theorem disjoint_of_blank {u space w a part z : List Char}
    (h : u ++ (space ++ w) = a ++ (part ++ z)) (hspace : ∀ c ∈ space, isBlank c = true)
    (hpart : ∀ c ∈ part, isBlank c = false) (hspace0 : space ≠ []) (hpart0 : part ≠ []) :
    byteLength u + byteLength space ≤ byteLength a ∨
      byteLength a + byteLength part ≤ byteLength u := by
  have hclash : ∀ {x y p q : List Char}, x ≠ [] → y ≠ [] → (∀ c ∈ x, isBlank c = true) →
      (∀ c ∈ y, isBlank c = false) → x ++ p ≠ y ++ q := by
    intro x y p q hx hy hblank hnot heq
    obtain ⟨c, x, rfl⟩ := List.exists_cons_of_ne_nil hx
    obtain ⟨b, y, rfl⟩ := List.exists_cons_of_ne_nil hy
    obtain ⟨rfl, -⟩ := List.cons.inj heq
    have := hblank c (by simp)
    rw [hnot c (by simp)] at this
    cases this
  rcases append_split h with ⟨more, rfl, hrest⟩ | ⟨more, -, rfl, hrest⟩
  · rcases append_split hrest with ⟨gap, rfl, -⟩ | ⟨gap, hgap, rfl, hmeet⟩
    · left
      simp only [byteLength_append]
      omega
    · exact absurd hmeet.symm
        (hclash hgap hpart0 (fun c hc => hspace c (List.mem_append_right _ hc)) hpart)
  · rcases append_split hrest with ⟨gap, rfl, -⟩ | ⟨gap, hgap, rfl, hmeet⟩
    · right
      simp only [byteLength_append]
      omega
    · exact absurd hmeet
        (hclash hspace0 hgap hspace fun c hc => hpart c (List.mem_append_right _ hc))

/-! ## Masks compose

A later pass reads what an earlier one has left. The stretch that it blanks may hold blanks where
the raw text had a directive, and what is wanted is a stretch of the raw text. Its two ends are
braces. Blanking writes none, so both of them have been kept, and a mask splits at a character that
has been kept (`split_at`). What stands between them in the raw text is another text than the pass
has seen, but it looks the same when it is blanked (`blank_eq`). -/

namespace Masks

variable {raw out : List Char}

protected theorem refl (cs : List Char) : Masks cs cs := by
  induction cs with
  | nil => exact .nil
  | cons c cs ih => exact .keep c ih

protected theorem append {raw' out' : List Char} (h : Masks raw out) (h' : Masks raw' out') :
    Masks (raw ++ raw') (out ++ out') := by
  induction h with
  | nil => exact h'
  | keep c _ ih => exact .keep c ih
  | span inner _ ih =>
    rw [List.append_assoc, List.append_assoc]
    exact .span inner ih

/-- Blanking does not see a mask. -/
theorem blank_eq (h : Masks raw out) : blank out = blank raw := by
  induction h with
  | nil => rfl
  | keep c _ ih => rw [blank_cons, blank_cons, ih]
  | span inner _ ih =>
    rw [blank_append, blank_append, ih, blank_eq_self fun c hc => isBlank_of_mem_blank hc]

/-- A character that is not blank has been kept, and a mask splits there. -/
theorem split_at {before after : List Char} {c : Char} (h : Masks raw (before ++ c :: after))
    (hc : isBlank c = false) :
    ∃ before' after', raw = before' ++ c :: after' ∧ Masks before' before ∧ Masks after' after := by
  generalize hout : before ++ c :: after = out at h
  induction h generalizing before with
  | nil => simp at hout
  | @keep raw out d hmask ih =>
    cases before with
    | nil =>
      obtain ⟨rfl, rfl⟩ := List.cons.inj hout
      exact ⟨[], raw, rfl, .nil, hmask⟩
    | cons b before =>
      obtain ⟨rfl, htail⟩ := List.cons.inj hout
      obtain ⟨before', after', rfl, hbefore, hafter⟩ := ih htail
      exact ⟨b :: before', after', rfl, .keep b hbefore, hafter⟩
  | @span raw out inner hmask ih =>
    -- the character stands behind the stretch, since the stretch is blank
    have hnot : c ∉ blank ('\x7b' :: (inner ++ ['\x7d'])) :=
      not_mem_of_forall (fun _ hd => isBlank_of_mem_blank hd) hc
    obtain ⟨more, rfl, htail⟩ := exists_append_of_not_mem hout.symm hnot
    obtain ⟨before', after', rfl, hbefore, hafter⟩ := ih htail.symm
    refine ⟨('\x7b' :: (inner ++ ['\x7d'])) ++ before', after', ?_, .span inner hbefore, hafter⟩
    rw [List.append_assoc]

/-- Nothing is the mask of nothing else. -/
theorem eq_nil (h : Masks raw []) : raw = [] := by
  generalize hout : [] = out at h
  cases h with
  | nil => rfl
  | keep c _ => cases hout
  | span inner _ => cases hout

/-- A part without blank characters has been kept, and a mask splits around it. -/
theorem split_around {before part after : List Char} (h : Masks raw (before ++ (part ++ after)))
    (hne : part ≠ []) (hpart : ∀ c ∈ part, isBlank c = false) :
    ∃ before' after', raw = before' ++ (part ++ after') ∧ Masks before' before ∧
      Masks after' after := by
  induction part generalizing raw before with
  | nil => exact absurd rfl hne
  | cons c part ih =>
    obtain ⟨before', rest, rfl, hbefore, hrest⟩ := h.split_at (hpart c (by simp))
    by_cases hnil : part = []
    · subst hnil
      exact ⟨before', rest, rfl, hbefore, hrest⟩
    · obtain ⟨gap, after', rfl, hgap, hafter⟩ :=
        @ih _ [] hrest hnil fun d hd => hpart d (List.mem_cons_of_mem c hd)
      obtain rfl := hgap.eq_nil
      exact ⟨before', after', rfl, hbefore, hafter⟩

/-- Blank text at the start of a text is kept. -/
theorem of_blank_append {space cs : List Char} (h : Masks (space ++ cs) out)
    (hspace : ∀ c ∈ space, isBlank c = true) : ∃ out', out = space ++ out' ∧ Masks cs out' := by
  induction space generalizing out with
  | nil => exact ⟨out, rfl, h⟩
  | cons d space ih =>
    generalize hraw : d :: space ++ cs = raw at h
    cases h with
    | nil => cases hraw
    | @keep raw out c hmask =>
      obtain ⟨rfl, rfl⟩ := List.cons.inj hraw
      obtain ⟨out', rfl, hrest⟩ := ih hmask fun c hc => hspace c (List.mem_cons_of_mem d hc)
      exact ⟨out', rfl, hrest⟩
    | @span raw out inner hmask =>
      obtain ⟨rfl, -⟩ := List.cons.inj hraw
      exact absurd (hspace '\x7b' (by simp)) (by decide)

/-- Masks compose. -/
protected theorem trans {a b c : List Char} (hab : Masks a b) (hbc : Masks b c) : Masks a c := by
  -- on the length of `a`: a stretch of the second mask may end deep inside the first one
  induction hlen : a.length using Nat.strong_induction_on generalizing a b c with
  | _ n ih =>
    subst hlen
    cases hab with
    | nil => exact hbc
    | @keep a b d hmask =>
      generalize hraw : d :: b = raw at hbc
      cases hbc with
      | nil => cases hraw
      | @keep raw out _ hmask' =>
        obtain ⟨rfl, rfl⟩ := List.cons.inj hraw
        exact .keep d (ih a.length (by simp) hmask hmask' rfl)
      | @span raw out inner hmask' =>
        rw [List.cons_append] at hraw
        obtain ⟨rfl, rfl⟩ := List.cons.inj hraw
        rw [List.append_assoc, List.singleton_append] at hmask
        obtain ⟨inner', rest, rfl, hinner, hrest⟩ := hmask.split_at (by decide)
        have hmasked : Masks rest out := ih rest.length (by simp; omega) hrest hmask' rfl
        have hspan := Masks.span inner' hmasked
        rw [blank_cons, blank_append, ← hinner.blank_eq] at hspan
        simpa using hspan
    | @span a b inner hmask =>
      obtain ⟨out, rfl, hmask'⟩ := hbc.of_blank_append fun c hc => isBlank_of_mem_blank hc
      exact .span inner (ih a.length (by simp; omega) hmask hmask' rfl)

end Masks

/-! ## Stripping masks -/

namespace Directive

/-- A directive stands between an opening and a closing brace. -/
theorem exists_of_span? {d : Directive} {cs span after : List Char}
    (h : d.span? cs = some (span, after)) : ∃ inner, span = '\x7b' :: (inner ++ ['\x7d']) := by
  unfold span? at h
  split at h
  · cases h
  · split at h
    · cases h
    · next body _ _ =>
      cases h
      cases d with
      | block => exact ⟨'%' :: (body ++ ['%']), by simp [opener, closer]⟩
      | expression => exact ⟨'\x7b' :: (body ++ ['\x7d']), by simp [opener, closer]⟩
      | comment => exact ⟨'#' :: (body ++ ['#']), by simp [opener, closer]⟩

/-- One pass masks the directives of its kind. -/
theorem masks_strip (d : Directive) (cs : List Char) : Masks cs (d.strip cs) := by
  -- on the length: a directive is blanked in one step, and the pass goes on behind it
  induction hlen : cs.length using Nat.strong_induction_on generalizing cs with
  | _ n ih =>
    subst hlen
    cases hspan : d.span? cs with
    | some found =>
      obtain ⟨span, after⟩ := found
      have hafter : Masks after (d.strip after) := ih _ (length_lt_of_span? hspan) after rfl
      obtain ⟨inner, hinner⟩ := exists_of_span? hspan
      rw [strip_of_span? hspan, eq_of_span? hspan, hinner]
      exact .span inner hafter
    | none =>
      cases cs with
      | nil => rw [strip_nil]; exact .nil
      | cons c rest =>
        rw [strip_cons hspan]
        exact .keep c (ih _ (by simp) rest rfl)

end Directive

/-- The three passes together mask a text. -/
theorem masks_stripDirectives (raw : List Char) : Masks raw (stripDirectives raw) :=
  ((Directive.masks_strip .block raw).trans (Directive.masks_strip .expression _)).trans
    (Directive.masks_strip .comment _)

/-- A text without opening braces has no directive. -/
theorem Directive.strip_of_not_mem {d : Directive} {cs : List Char} (h : '\x7b' ∉ cs) :
    d.strip cs = cs := by
  refine strip_eq_self fun before rest hcs => ?_
  cases hspan : d.span? rest with
  | none => rfl
  | some found =>
    exfalso
    obtain ⟨inner, hinner⟩ := exists_of_span? hspan
    apply h
    rw [hcs, eq_of_span? hspan, hinner]
    simp

/-! ## Masks byte by byte

A character is blanked to as many characters as it has bytes. So a text and its mask do not
correspond character by character, and what is said about places is said about bytes. -/

/-- What masking does to one byte: it stays, or it is no line break and becomes a space. -/
def ByteMasks (b b' : UInt8) : Prop := b' = b ∨ (b' = 0x20 ∧ b ≠ 0x0A ∧ b ≠ 0x0D)

/-- A line break survives masking and none appears. -/
theorem ByteMasks.eq_iff {b b' x : UInt8} (h : ByteMasks b b') (hx : x = 0x0A ∨ x = 0x0D) :
    b' = x ↔ b = x := by
  rcases h with rfl | ⟨rfl, hfeed, hreturn⟩
  · exact Iff.rfl
  · rcases hx with rfl | rfl
    · exact ⟨fun h => absurd h (by decide), fun h => absurd h hfeed⟩
    · exact ⟨fun h => absurd h (by decide), fun h => absurd h hreturn⟩

theorem byteMasks_refl (bs : List UInt8) : List.Forall₂ ByteMasks bs bs :=
  List.forall₂_same.2 fun _ _ => .inl rfl

theorem encode_spaces (n : Nat) : encode (List.replicate n ' ') = List.replicate n 0x20 := by
  induction n with
  | zero => rfl
  | succ n ih => rw [List.replicate_succ, encode_cons, ih]; rfl

/-- Blanking a character masks its bytes. -/
theorem byteMasks_blankChar (c : Char) :
    List.Forall₂ ByteMasks (String.utf8EncodeChar c) (encode (blankChar c)) := by
  unfold blankChar
  split
  · rw [encode_cons, encode_nil, List.append_nil]
    exact byteMasks_refl _
  · next hc =>
    rw [encode_spaces, List.forall₂_iff_zip]
    refine ⟨by simp, fun {b b'} hmem => .inr ?_⟩
    obtain ⟨hb, hb'⟩ := List.of_mem_zip hmem
    refine ⟨(List.mem_replicate.1 hb').2, ?_, ?_⟩
    · rintro rfl
      exact hc (.inl (eq_of_mem_encodeChar hb (by decide)))
    · rintro rfl
      exact hc (.inr (eq_of_mem_encodeChar hb (by decide)))

theorem byteMasks_blank (span : List Char) :
    List.Forall₂ ByteMasks (encode span) (encode (blank span)) := by
  induction span with
  | nil => exact .nil
  | cons c cs ih =>
    rw [encode_cons, blank_cons, encode_append]
    exact List.rel_append (byteMasks_blankChar c) ih

namespace Masks

variable {raw out : List Char}

/-- A mask of a text masks its bytes one by one. -/
theorem byteMasks (h : Masks raw out) : List.Forall₂ ByteMasks (encode raw) (encode out) := by
  induction h with
  | nil => exact .nil
  | keep c _ ih =>
    rw [encode_cons, encode_cons]
    exact List.rel_append (byteMasks_refl _) ih
  | span inner _ ih =>
    rw [encode_append, encode_append]
    exact List.rel_append (byteMasks_blank _) ih

/-- Masking keeps the byte length. -/
theorem byteLength_eq (h : Masks raw out) : byteLength out = byteLength raw := by
  rw [← length_encode, ← length_encode, h.byteMasks.length_eq]

/-- Boundaries of a text are boundaries of what masking makes of it. -/
theorem isBoundary (h : Masks raw out) {offset : Nat} (hoffset : IsBoundary raw offset) :
    IsBoundary out offset := by
  induction h generalizing offset with
  | nil => exact hoffset
  | @keep raw out c _ ih =>
    rw [← List.singleton_append, isBoundary_append_iff] at hoffset ⊢
    rcases hoffset with hc | ⟨rest, hrest, rfl⟩
    · exact .inl hc
    · exact .inr ⟨rest, ih hrest, rfl⟩
  | span inner _ ih =>
    rw [isBoundary_append_iff] at hoffset ⊢
    rcases hoffset with ⟨before, after, hspan, rfl⟩ | ⟨rest, hrest, rfl⟩
    · left
      refine ⟨blank before, blank after, ?_, byteLength_blank before⟩
      rw [hspan, blank_append]
    · exact .inr ⟨rest, ih hrest, by rw [byteLength_blank]⟩

/-- Bytes at the same offset are related as masking relates them. -/
theorem byteMasks_getElem? (h : Masks raw out) {offset : Nat} {b b' : UInt8}
    (hb : (encode raw)[offset]? = some b) (hb' : (encode out)[offset]? = some b') :
    ByteMasks b b' := by
  obtain ⟨hlt, rfl⟩ := List.getElem?_eq_some_iff.1 hb
  obtain ⟨hlt', rfl⟩ := List.getElem?_eq_some_iff.1 hb'
  exact (List.forall₂_iff_get.1 h.byteMasks).2 offset hlt hlt'

/-- A line-break byte stands at the same offsets before and after. -/
theorem getElem?_eq_some_iff (h : Masks raw out) (offset : Nat) {x : UInt8}
    (hx : x = 0x0A ∨ x = 0x0D) :
    (encode out)[offset]? = some x ↔ (encode raw)[offset]? = some x := by
  have hlen : (encode out).length = (encode raw).length := h.byteMasks.length_eq.symm
  by_cases hlt : offset < (encode raw).length
  · have hraw := List.getElem?_eq_getElem hlt
    have hout := List.getElem?_eq_getElem (hlen ▸ hlt)
    rw [hraw, hout, Option.some.injEq, Option.some.injEq]
    exact (h.byteMasks_getElem? hraw hout).eq_iff hx
  · rw [List.getElem?_eq_none (by omega), List.getElem?_eq_none (by omega)]

/-- Masking moves no offset to another line. -/
theorem lineAt_eq (h : Masks raw out) (offset : Nat) : lineAt out offset = lineAt raw offset := by
  have hcount : ∀ {a b : List UInt8}, List.Forall₂ ByteMasks a b →
      b.count 0x0A = a.count 0x0A := by
    intro a b hab
    induction hab with
    | nil => rfl
    | cons hbyte _ ih =>
      rw [List.count_cons, List.count_cons, ih]
      simp only [beq_iff_eq, hbyte.eq_iff (.inl rfl)]
  rw [lineAt_eq_count, lineAt_eq_count, hcount (List.forall₂_take offset h.byteMasks)]

end Masks

/-- **Stripping overwrites in place.** The stripped text has as many bytes as the raw one; each of
them is the raw byte or a space; line feeds and carriage returns stand exactly where they stood;
every boundary between characters of the raw text is one of the stripped text; and so every offset
has the same line in both. -/
theorem stripDirectives_masks_bytes (raw : List Char) :
    byteLength (stripDirectives raw) = byteLength raw ∧
    (∀ (offset : Nat) (b b' : UInt8), (encode raw)[offset]? = some b →
      (encode (stripDirectives raw))[offset]? = some b' → b' = b ∨ b' = 0x20) ∧
    (∀ offset : Nat, (encode (stripDirectives raw))[offset]? = some 0x0A ↔
      (encode raw)[offset]? = some 0x0A) ∧
    (∀ offset : Nat, (encode (stripDirectives raw))[offset]? = some 0x0D ↔
      (encode raw)[offset]? = some 0x0D) ∧
    (∀ offset : Nat, IsBoundary raw offset → IsBoundary (stripDirectives raw) offset) ∧
    ∀ offset : Nat, lineAt (stripDirectives raw) offset = lineAt raw offset := by
  have h := masks_stripDirectives raw
  refine ⟨h.byteLength_eq, ?_, fun o => h.getElem?_eq_some_iff o (.inl rfl),
    fun o => h.getElem?_eq_some_iff o (.inr rfl), fun o => h.isBoundary, h.lineAt_eq⟩
  intro offset b b' hb hb'
  rcases h.byteMasks_getElem? hb hb' with heq | ⟨hspace, -⟩
  · exact .inl heq
  · exact .inr hspace

end StagingAudit
