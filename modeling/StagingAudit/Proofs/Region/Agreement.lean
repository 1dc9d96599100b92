import StagingAudit.Proofs.Region.Boundary

/-!
# Regions of the raw and of the stripped text

Whether a model has an `enhanced` block is decided on the stripped text, and its markers are looked
for in a region of the raw text. Both searches walk the same bytes but do not always meet: a remark
between the name and `as` is white space in one text and in the way in the other, and a directive
may hold an introduction of its own.

**The regions cover the same bytes exactly when no directive disturbs either end**
(`regionRange?_agree_iff`).
-/

namespace StagingAudit

/-- The bytes that the region of the first block called `name` covers. -/
def regionRange? (name text : List Char) : Option (Nat × Nat) := do
  let start ← bodyStart? name text
  let region ← isolate? name text
  return (start, start + byteLength region)

/-- A region starts where the introduction of its block ends. -/
theorem bodyStart?_eq_firstSpan? (name text : List Char) :
    bodyStart? name text = (firstSpan? (introduces name) text).map (·.2) := by
  rw [bodyStart?, fromBody?, firstSpan?, Option.map_map, Option.map_map]
  rfl

/-- The range of a region in terms of the body it is cut from. -/
theorem regionRange?_of_fromBody? {name text body : List Char}
    (h : fromBody? name text = some body) :
    regionRange? name text = some (byteLength text - byteLength body,
      byteLength text - byteLength body + byteLength (upToNextBlock body)) := by
  simp [regionRange?, bodyStart?, isolate?, h]

/-- Where a body starts there is one. -/
theorem exists_fromBody? {name text : List Char} (h : (bodyStart? name text).isSome) :
    ∃ body, fromBody? name text = some body := by
  rwa [bodyStart?, Option.isSome_map, Option.isSome_iff_exists] at h

/-- A range comes with a start. -/
theorem isSome_bodyStart? {name text : List Char} {range : Nat × Nat}
    (h : regionRange? name text = some range) : (bodyStart? name text).isSome := by
  obtain ⟨start, hstart, -⟩ := Option.bind_eq_some_iff.1 h
  rw [hstart]
  rfl

/-- A region ends before the next block, or with the text. -/
theorem byteLength_upToNextBlock (body : List Char) :
    byteLength (upToNextBlock body) =
      ((firstSpan? (fun _ => nextBlock) body).map (·.1)).getD (byteLength body) := by
  rw [upToNextBlock, firstSpan?, find?]
  cases scan? (fun _ => nextBlock) none body with
  | none => rfl
  | some found => rfl

/-- The next block starts inside the body. -/
theorem start_lt_of_nextBlock {body : List Char} {i j : Nat}
    (h : firstSpan? (fun _ => nextBlock) body = some (i, j)) : i < byteLength body := by
  obtain ⟨hstands, -⟩ := nextBlockShape.firstSpan?_eq_some_iff.1 h
  obtain ⟨before, taken, rest, rfl, -, htakes, rfl, -⟩ := nextBlockShape.standsAt_iff.1 hstands
  obtain ⟨c, inner, rfl, -⟩ := nextBlockShape.exists_eq htakes
  have := c.utf8Size_pos
  simp only [byteLength_append, byteLength_cons]
  omega

section Mask

variable {name raw out rawBody body : List Char}

/-- Regions of masked bodies end together exactly when nothing disturbs the search for the next
block. -/
theorem byteLength_upToNextBlock_eq_iff (h : Masks rawBody body) :
    byteLength (upToNextBlock rawBody) = byteLength (upToNextBlock body) ↔
      Undisturbed (fun _ => nextBlock) rawBody body := by
  rw [← nextBlockShape.firstSpan?_eq_iff h, byteLength_upToNextBlock, byteLength_upToNextBlock,
    h.byteLength_eq]
  refine ⟨?_, ?_⟩
  · intro hlen
    -- a next block starts before the end of the body, so its start is told apart from none
    refine nextBlockShape.firstSpan?_eq_of_start h ?_
    cases hraw : firstSpan? (fun _ => nextBlock) rawBody with
    | none =>
      cases hout : firstSpan? (fun _ => nextBlock) body with
      | none => rfl
      | some span =>
        have hlt := start_lt_of_nextBlock hout
        simp only [hraw, hout, Option.map_none, Option.map_some, Option.getD_none,
          Option.getD_some] at hlen
        rw [h.byteLength_eq] at hlt
        omega
    | some span =>
      have hlt := start_lt_of_nextBlock hraw
      cases hout : firstSpan? (fun _ => nextBlock) body with
      | none =>
        simp only [hraw, hout, Option.map_none, Option.map_some, Option.getD_none,
          Option.getD_some] at hlen
        omega
      | some span' =>
        simp only [hraw, hout, Option.map_some, Option.getD_some] at hlen
        rw [Option.map_some, Option.map_some, hlen]
  · intro heq
    rw [heq]

/-- A body stands behind a parenthesis. -/
theorem exists_of_fromBody? (hname : IsPlainName name) (h : fromBody? name out = some body) :
    ∃ front, out = front ++ '(' :: body := by
  obtain ⟨⟨before, rest⟩, hscan, rfl⟩ := Option.map_eq_some_iff.1 h
  obtain ⟨tail, rfl, hfound, -⟩ := scan?_eq_some_iff.1 hscan
  obtain ⟨-, taken, htakes, rfl⟩ := (introducesShape hname).eq_some_iff.1 hfound
  obtain ⟨c, inner, rfl, -⟩ := (introducesShape hname).exists_eq htakes
  exact ⟨before ++ c :: inner, by simp⟩

/-- Bodies that start at the same byte are masked like the texts they stand in. -/
theorem masks_body (hname : IsPlainName name) (h : Masks raw out)
    (hraw : fromBody? name raw = some rawBody) (hout : fromBody? name out = some body)
    (hstart : bodyStart? name raw = bodyStart? name out) : Masks rawBody body := by
  obtain ⟨front, rfl⟩ := exists_of_fromBody? hname hraw
  obtain ⟨front', rfl⟩ := exists_of_fromBody? hname hout
  have hmask : Masks ((front ++ ['(']) ++ rawBody) (front' ++ '(' :: body) := by simpa using h
  refine hmask.of_kept (by decide) ?_
  simp only [bodyStart?, hraw, hout, Option.map_some, Option.some.injEq, byteLength_append,
    byteLength_cons] at hstart
  simp only [byteLength_append, byteLength_cons, byteLength_nil]
  omega

/-- **Regions of a text and of its mask.** When the mask has a block of a name, the regions of that
name cover the same bytes in both exactly when nothing disturbs the search for its introduction
and, behind it, the search for the next block. -/
theorem regionRange?_agree_iff (hname : IsPlainName name) (h : Masks raw out)
    (hblock : ∃ i j, StandsAt (introduces name) out i j) :
    (∃ range, regionRange? name raw = some range ∧ regionRange? name out = some range) ↔
      Undisturbed (introduces name) raw out ∧
        ∀ rawBody body, fromBody? name raw = some rawBody → fromBody? name out = some body →
          Undisturbed (fun _ => nextBlock) rawBody body := by
  rw [← (introducesShape hname).firstSpan?_eq_iff h]
  refine ⟨?_, ?_⟩
  · rintro ⟨range, hraw, hout⟩
    obtain ⟨rawBody, hrawBody⟩ := exists_fromBody? (isSome_bodyStart? hraw)
    obtain ⟨body, hbody⟩ := exists_fromBody? (isSome_bodyStart? hout)
    rw [regionRange?_of_fromBody? hrawBody, Option.some.injEq] at hraw
    rw [regionRange?_of_fromBody? hbody, ← hraw, Option.some.injEq, Prod.mk.injEq] at hout
    obtain ⟨hstart, hend⟩ := hout
    have hstart' : bodyStart? name raw = bodyStart? name out := by
      rw [bodyStart?, bodyStart?, hrawBody, hbody, Option.map_some, Option.map_some, hstart]
    refine ⟨(introducesShape hname).firstSpan?_eq_of_end h (IntroducesBlock.eq_nil hname) ?_, ?_⟩
    · rw [← bodyStart?_eq_firstSpan?, ← bodyStart?_eq_firstSpan?, hstart']
    · intro rawBody' body' hrawBody' hbody'
      rw [hrawBody, Option.some.injEq] at hrawBody'
      rw [hbody, Option.some.injEq] at hbody'
      subst hrawBody' hbody'
      rw [← byteLength_upToNextBlock_eq_iff (masks_body hname h hrawBody hbody hstart')]
      omega
  · rintro ⟨hspan, hnext⟩
    have hstart : bodyStart? name raw = bodyStart? name out := by
      rw [bodyStart?_eq_firstSpan?, bodyStart?_eq_firstSpan?, hspan]
    have hsome : (bodyStart? name out).isSome := by
      obtain ⟨i, j, hstands⟩ := hblock
      rw [bodyStart?_eq_firstSpan?, Option.isSome_map, Option.isSome_iff_ne_none]
      exact fun hnone => (introducesShape hname).firstSpan?_eq_none_iff.1 hnone i j hstands
    obtain ⟨body, hbody⟩ := exists_fromBody? hsome
    obtain ⟨rawBody, hrawBody⟩ := exists_fromBody? (hstart ▸ hsome)
    have hlen := (byteLength_upToNextBlock_eq_iff (masks_body hname h hrawBody hbody hstart)).2
      (hnext rawBody body hrawBody hbody)
    refine ⟨_, regionRange?_of_fromBody? hrawBody, ?_⟩
    rw [bodyStart?, bodyStart?, hrawBody, hbody, Option.map_some, Option.map_some,
      Option.some.injEq] at hstart
    rw [regionRange?_of_fromBody? hbody, hstart, hlen]

end Mask

/-! ## The enhanced block -/

/-- **The region of the enhanced block.** When the stripped text has an `enhanced` block, the raw
text has a region for it that covers the same bytes exactly when no directive disturbs it: none
reaches into the introduction that the stripped text has first, none before it holds another, and
the same is true of the next block behind it. -/
theorem enhancedRegion_agrees_iff (raw : List Char)
    (h : (findBlocks (stripDirectives raw)).any (·.isNamed "enhanced") = true) :
    (∃ range, regionRange? "enhanced".toList raw = some range ∧
      regionRange? "enhanced".toList (stripDirectives raw) = some range) ↔
    Undisturbed (introduces "enhanced".toList) raw (stripDirectives raw) ∧
    ∀ rawBody body, fromBody? "enhanced".toList raw = some rawBody →
      fromBody? "enhanced".toList (stripDirectives raw) = some body →
      Undisturbed (fun _ => nextBlock) rawBody body :=
  have hname : IsPlainName "enhanced".toList := isPlainName_of_required (by decide)
  regionRange?_agree_iff hname (masks_stripDirectives raw) (standsAt_of_isNamed hname h)

/-- A model with a remark before the introduction, a value in the body and a remark before the next
block. -/
def directivesAround : List Char :=
  ("with x\x7b# as ( #\x7d, enhanced as (\x7b\x7b key('id') \x7d\x7d as id_sk" ++
    "\x7b# ), z as #\x7d), y as (1)").toList

/-- Directives beside the introduction and inside the body disturb nothing. -/
theorem enhancedRegion_undisturbed :
    (findBlocks (stripDirectives directivesAround)).any (·.isNamed "enhanced") = true ∧
    Undisturbed (introduces "enhanced".toList) directivesAround
      (stripDirectives directivesAround) ∧
    ∀ rawBody body, fromBody? "enhanced".toList directivesAround = some rawBody →
      fromBody? "enhanced".toList (stripDirectives directivesAround) = some body →
      Undisturbed (fun _ => nextBlock) rawBody body := by
  have hblock : (findBlocks (stripDirectives directivesAround)).any (·.isNamed "enhanced") =
      true := by decide +kernel
  refine ⟨hblock, (enhancedRegion_agrees_iff directivesAround hblock).1 ⟨(31, 68), ?_, ?_⟩⟩
  · decide +kernel
  · decide +kernel

/-- A model with a remark between the name of the block and `as`. -/
def remarkInside : List Char :=
  ("with enhanced \x7b# note #\x7d as (\n" ++
    "  select 1 as id_sk, now() as _loaded_at\n)\n").toList

/-- A remark inside the introduction takes the region of a block away. -/
theorem enhancedRegion_disturbed :
    ¬∀ raw : List Char, (findBlocks (stripDirectives raw)).any (·.isNamed "enhanced") = true →
      ∃ range, regionRange? "enhanced".toList raw = some range ∧
        regionRange? "enhanced".toList (stripDirectives raw) = some range := by
  intro hall
  obtain ⟨range, hraw, -⟩ := hall remarkInside (by decide +kernel)
  have hnone : regionRange? "enhanced".toList remarkInside = none := by decide +kernel
  rw [hnone] at hraw
  cases hraw

end StagingAudit
