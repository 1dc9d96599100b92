import StagingAudit.Proofs.Region.Agreement
import StagingAudit.Proofs.Region.Gate
import StagingAudit.Rule.Structure

/-!
# The block that a region belongs to

A rule that looks into a block reports the line of the first block of a name and judges the region
that a search by that name cuts out. The first goes by the grammar, where a name stands at the
start or behind white space or a comma; for the second a word edge is enough, so it also stops at a
name behind a hyphen, a point, a quotation mark or a parenthesis.

Such a name behind a sign is all that can come between the two. **The region belongs to the block
that is reported exactly when no introduction of that name stands behind a sign before it**
(`regionOf_iff`). This holds of names that read alike in both searches, and `final` is one.
-/

namespace StagingAudit

/-! ## Names that read alike -/

/-- A name that is the same to both searches: none of its letters has a form beyond ASCII, and it
is not reserved. -/
structure IsSteadyName (name : List Char) : Prop extends IsPlainName name where
  /-- the long s and the Kelvin sign are forms of the only other letters -/
  no_forms : ∀ c ∈ name, c.toLower ≠ 's' ∧ c.toLower ≠ 'k'
  /-- blocks may be called so -/
  not_reserved : isReserved name = false

theorem isSteadyName_final : IsSteadyName "final".toList :=
  ⟨isPlainName_of_required (by decide), by decide, by decide⟩

namespace IsSteadyName

variable {name word : List Char}

/-- Every way to write a steady name is in ASCII. -/
theorem isAscii_of_sameLetters (h : IsSteadyName name) (hsame : Recogniser.SameLetters name word) :
    ∀ c ∈ word, c.toNat < 0x80 := by
  intro c hc
  obtain ⟨p, hp, hletter⟩ := hsame.exists_of_mem hc
  rw [sameLetter, beq_iff_eq, foldCase, if_pos (h.isAscii p hp)] at hletter
  by_contra hbeyond
  have hlow := toLower_lt (h.isAscii p hp)
  rw [hletter] at hlow
  obtain ⟨hs, hk⟩ := h.no_forms p hp
  rcases eq_of_foldCase_ascii (by omega) hlow with rfl | rfl
  · exact hs (hletter.trans (by decide +kernel))
  · exact hk (hletter.trans (by decide +kernel))

/-- A word with the letters of a steady name is the name in some ASCII case. -/
theorem map_toLower_eq (h : IsSteadyName name) (hsame : Recogniser.SameLetters name word) :
    word.map Char.toLower = name.map Char.toLower := by
  have hcase := sameAsciiCase_of_sameLetters h.isAscii (h.isAscii_of_sameLetters hsame) hsame
  rwa [sameAsciiCase, beq_iff_eq] at hcase

/-- So it is not reserved. -/
theorem isReserved_eq_false (h : IsSteadyName name) (hsame : Recogniser.SameLetters name word) :
    isReserved word = false := by
  rw [← h.not_reserved, isReserved, isReserved]
  simp only [sameAsciiCase, h.map_toLower_eq hsame]

/-- And a block with this word goes by the name. -/
theorem isNamed_toBlock {name : String} {i : Introduction} (h : IsSteadyName name.toList)
    (hsame : Recogniser.SameLetters name.toList i.word) (text : List Char) :
    (i.toBlock text).isNamed name = true := by
  have hword := h.isAscii_of_sameLetters hsame
  rw [Introduction.toBlock, Block.isNamed, String.toList_ofList, sameAsciiCase, beq_iff_eq,
    map_toLower_lowerCase, lowerCase_of_ascii hword, h.map_toLower_eq hsame]

end IsSteadyName

/-! ## The first block of a name -/

/-- The first introduction that becomes a block of a given name. -/
def firstNamed? (name : String) (text : List Char) : Option Introduction :=
  (blockIntroductions text).find? fun i => (i.toBlock text).isNamed name

/-- It becomes the first block of that name. -/
theorem find?_findBlocks (name : String) (text : List Char) :
    (findBlocks text).find? (·.isNamed name) =
      (firstNamed? name text).map (Introduction.toBlock text) := by
  rw [findBlocks_eq_map, List.find?_map]
  rfl

/-- No other block of that name comes before it. -/
theorem offset_le_of_firstNamed? {name : String} {text : List Char} {i j : Introduction}
    (h : firstNamed? name text = some i) (hj : j ∈ blockIntroductions text)
    (hnamed : (j.toBlock text).isNamed name = true) : i.offset ≤ j.offset := by
  have hpairs : (blockIntroductions text).Pairwise fun i j => i.offset < j.offset :=
    (pairwise_introductionsFrom true 0 (blankLeadingWith text)).1.filter _
  obtain ⟨-, front, back, hlist, hfront⟩ := List.find?_eq_some_iff_append.1 h
  rw [hlist] at hj hpairs
  rcases List.mem_append.1 hj with hj | hj
  · have hnot := hfront j hj
    rw [hnamed] at hnot
    cases hnot
  · rcases List.mem_cons.1 hj with rfl | hj
    · exact Nat.le_refl _
    · obtain ⟨-, htail, -⟩ := List.pairwise_append.1 hpairs
      exact (List.rel_of_pairwise_cons htail hj).le

/-- Where a name may start, an introduction by a steady name becomes a block of that name. -/
theorem exists_mem_blockIntroductions {name : String} {before taken : List Char}
    (hname : IsSteadyName name.toList) (hmay : mayStart before.getLast? = true)
    (htaken : IntroducesBlock name.toList taken) (after : List Char) :
    ∃ i ∈ blockIntroductions (before ++ (taken ++ after)), i.offset = byteLength before ∧
      (i.toBlock (before ++ (taken ++ after))).isNamed name = true := by
  obtain ⟨word, opening, hsame, hopens, rfl⟩ := htaken
  refine ⟨⟨byteLength before, word⟩, mem_blockIntroductions_iff.2
    ⟨hname.isReserved_eq_false hsame, before, _, rfl, rfl, hmay,
      hname.toIsPlainName.isName hsame, opening, after, hopens, ?_⟩, rfl,
    hname.isNamed_toBlock hsame _⟩
  rw [List.append_assoc]

/-! ## The introduction that the search by name takes

The search by name takes the leftmost place where it succeeds. The first block of the name is one
such place, so the search stops there or earlier. Suppose that it stops earlier. If a name might
start at that place it would be a block of that name before the first one. So there is a character
before it, which is no separator and, at a word edge, no word character either: it is a sign. -/

/-- The byte offset at which the search by name succeeds. -/
def introductionStart? (name text : List Char) : Option Nat :=
  (firstSpan? (introduces name) text).map (·.1)

/-- At a byte offset of a text an introduction by name stands behind a sign: a character that is
no word character, and neither white space nor a comma. -/
def BehindSign (name text : List Char) (offset : Nat) : Prop :=
  ∃ before sign taken after, text = (before ++ [sign]) ++ (taken ++ after) ∧
    byteLength (before ++ [sign]) = offset ∧ isWord sign = false ∧ opensName sign = false ∧
    IntroducesBlock name taken

/-- The region that is cut out under a name belongs to an introduction. -/
structure RegionOf (name text : List Char) (i : Introduction) : Prop where
  /-- the search by name succeeds where the introduction stands -/
  starts : introductionStart? name text = some i.offset
  /-- the region is cut from the text behind the parenthesis of the introduction -/
  body : ∃ before opening after, text = before ++ ((i.word ++ opening) ++ after) ∧
    byteLength before = i.offset ∧ OpensBody opening ∧
    isolate? name text = some (upToNextBlock after)

section

variable {name : String} {text : List Char} {i : Introduction}

/-- A block that goes by a name is one of the places where the search by name would succeed. -/
theorem exists_introduces_of_firstNamed? (hname : IsPlainName name.toList)
    (h : firstNamed? name text = some i) :
    ∃ before opening after, text = before ++ ((i.word ++ opening) ++ after) ∧
      byteLength before = i.offset ∧ OpensBody opening ∧
      introduces name.toList (lastChar none before) ((i.word ++ opening) ++ after) =
        some after := by
  have hname' : ∀ c ∈ name.toList, isWord c = true ∧ c.toNat < 0x80 :=
    fun c hc => ⟨hname.isWord c hc, hname.isAscii c hc⟩
  have hnamed : (i.toBlock text).isNamed name = true := by simpa using List.find?_some h
  obtain ⟨before, opening, after, htext, hoffset, hopens, hintro, -⟩ :=
    (isolatedAt_of_isNamed hname' (List.mem_of_find?_eq_some h) hnamed).found
  rw [← Option.or_none (o := before.getLast?)] at hintro
  exact ⟨before, opening, after, htext, hoffset, hopens, hintro⟩

/-- When the search by name succeeds where the first block of that name stands, the region is that
of the block. -/
theorem regionOf_of_starts (hname : IsPlainName name.toList) (h : firstNamed? name text = some i)
    (hstart : introductionStart? name.toList text = some i.offset) :
    RegionOf name.toList text i := by
  obtain ⟨before, opening, after, htext, hoffset, hopens, hintro⟩ :=
    exists_introduces_of_firstNamed? hname h
  refine ⟨hstart, before, opening, after, htext, hoffset, hopens, ?_⟩
  obtain ⟨⟨start, stop⟩, hspan, hoff⟩ := Option.map_eq_some_iff.1 hstart
  obtain ⟨⟨before', rest⟩, hscan, hfound⟩ := Option.map_eq_some_iff.1 hspan
  cases hfound
  obtain ⟨tail, htext', hsucc, -⟩ := scan?_eq_some_iff.1 hscan
  -- both places have the same offset, so the search was asked about the same text
  obtain ⟨rfl, rfl⟩ := eq_of_byteLength_eq (htext'.symm.trans htext) (hoff.trans hoffset.symm)
  rw [hintro, Option.some.injEq] at hsucc
  rw [isolate?, fromBody?, hscan, hsucc]
  rfl

/-- The search by name stops at the first block of that name, or before it at an introduction
behind a sign. -/
theorem behindSign_or_eq {start stop : Nat} (hname : IsSteadyName name.toList)
    (h : firstNamed? name text = some i)
    (hspan : firstSpan? (introduces name.toList) text = some (start, stop)) :
    start = i.offset ∨ start < i.offset ∧ BehindSign name.toList text start := by
  have hplain := hname.toIsPlainName
  obtain ⟨hstands, hleast⟩ := (introducesShape hplain).firstSpan?_eq_some_iff.1 hspan
  have hle : start ≤ i.offset := by
    obtain ⟨before, opening, after, htext, hoffset, -, hintro⟩ :=
      exists_introduces_of_firstNamed? hplain h
    exact hleast _ _ ⟨before, i.word ++ opening, after, htext, hintro, hoffset, rfl⟩
  obtain ⟨before, taken, after, rfl, hedge, htaken, rfl, -⟩ :=
    (introducesShape hplain).standsAt_iff.1 hstands
  by_cases hmay : mayStart before.getLast? = true
  · -- the grammar has a block here, and none of this name comes before the first one
    obtain ⟨j, hj, hoffset, hnamed⟩ := exists_mem_blockIntroductions hname hmay htaken after
    have := offset_le_of_firstNamed? h hj hnamed
    exact .inl (by omega)
  · rcases List.eq_nil_or_concat' before with rfl | ⟨front, sign, rfl⟩
    · exact absurd rfl hmay
    · rw [List.getLast?_concat, mayStart_some, Bool.not_eq_true] at hmay
      have hsign : isWord sign = false := by
        rw [lastChar_concat] at hedge
        simpa [introducesShape] using hedge
      have hbehind : BehindSign name.toList _ _ :=
        ⟨front, sign, taken, after, rfl, rfl, hsign, hmay, htaken⟩
      rcases hle.eq_or_lt with heq | hlt
      · exact .inl heq
      · exact .inr ⟨hlt, hbehind⟩

/-- **The region belongs to the reported block** exactly when no introduction of its name stands
behind a sign before it. -/
theorem regionOf_iff (hname : IsSteadyName name.toList) (h : firstNamed? name text = some i) :
    RegionOf name.toList text i ↔ ∀ offset < i.offset, ¬BehindSign name.toList text offset := by
  have hplain := hname.toIsPlainName
  refine ⟨?_, ?_⟩
  · rintro ⟨hstart, -⟩ offset hlt ⟨before, sign, taken, after, htext, hoff, hsign, -, htaken⟩
    obtain ⟨⟨start, stop⟩, hspan, hstart⟩ := Option.map_eq_some_iff.1 hstart
    obtain ⟨-, hleast⟩ := (introducesShape hplain).firstSpan?_eq_some_iff.1 hspan
    have hedge : (introducesShape hplain).edge (lastChar none (before ++ [sign])) = true := by
      rw [lastChar_concat]
      simpa [introducesShape] using hsign
    have hle := hleast offset _ ((introducesShape hplain).standsAt_iff.2
      ⟨before ++ [sign], taken, after, htext, hedge, htaken, hoff, rfl⟩)
    dsimp only at hstart
    omega
  · intro hnone
    obtain ⟨before, opening, after, htext, hoffset, -, hintro⟩ :=
      exists_introduces_of_firstNamed? hplain h
    have hstands : StandsAt (introduces name.toList) text i.offset _ :=
      ⟨before, i.word ++ opening, after, htext, hintro, hoffset, rfl⟩
    cases hspan : firstSpan? (introduces name.toList) text with
    | none =>
      exact absurd hstands ((introducesShape hplain).firstSpan?_eq_none_iff.1 hspan _ _)
    | some span =>
      refine regionOf_of_starts hplain h ?_
      rw [introductionStart?, hspan, Option.map_some, Option.some.injEq]
      rcases behindSign_or_eq hname h hspan with heq | ⟨hlt, hbehind⟩
      · exact heq
      · exact absurd hbehind (hnone _ hlt)

end

/-! ## The final block -/

/-- The rule on the columns of the final block reports the line of the first one. -/
theorem line_of_mem_checkFinalExplicitColumns {m : Model} {block : Block} {severity : Severity}
    {v : Violation} (hblock : m.block? "final" = some block)
    (h : v ∈ RuleId.checkFinalExplicitColumns severity m) : v.line = some block.line := by
  rw [RuleId.checkFinalExplicitColumns, hblock] at h
  dsimp only at h
  split at h
  · cases h
  · obtain rfl := List.mem_singleton.1 h
    rfl

/-- **Whose columns are judged.** When a model has a `final` block, the rule on its columns reports
the line of the first one. The columns that it judges are those of the same block exactly when no
introduction of `final` stands behind a sign before that block. -/
theorem finalColumns_of_reported_block_iff (root path : Path) (raw : List Char)
    (conventions : Conventions)
    (h : (Model.ofText root path raw conventions).hasBlock "final" = true) :
    ∃ i, firstNamed? "final" (stripDirectives raw) = some i ∧
      (∀ severity, ∀ v ∈ RuleId.checkFinalExplicitColumns severity
        (Model.ofText root path raw conventions),
          v.line = some (lineAt (stripDirectives raw) i.offset)) ∧
      (RegionOf "final".toList (stripDirectives raw) i ↔
        ∀ offset < i.offset, ¬BehindSign "final".toList (stripDirectives raw) offset) := by
  have hblock : (Model.ofText root path raw conventions).block? "final" =
      (firstNamed? "final" (stripDirectives raw)).map
        (Introduction.toBlock (stripDirectives raw)) := find?_findBlocks _ _
  rw [Model.hasBlock, hblock, Option.isSome_map] at h
  obtain ⟨i, hi⟩ := Option.isSome_iff_exists.1 h
  rw [hi, Option.map_some] at hblock
  exact ⟨i, hi, fun _ _ hv => line_of_mem_checkFinalExplicitColumns hblock hv,
    regionOf_iff isSteadyName_final hi⟩

/-- A model with its final block behind a remark, and in front of one that is commented out. -/
def commentBehind : List Char := "\x7b# x #\x7dFinal as (1),\n--final as (2)".toList

/-- An introduction behind a sign takes nothing away from a block before it. -/
theorem finalColumns_of_commentBehind :
    (Model.ofText (.ofString ".") (.ofString "m.sql") commentBehind {}).hasBlock "final" = true ∧
    firstNamed? "final" (stripDirectives commentBehind) = some ⟨7, "Final".toList⟩ ∧
    RegionOf "final".toList (stripDirectives commentBehind) ⟨7, "Final".toList⟩ ∧
    ∀ offset < 7, ¬BehindSign "final".toList (stripDirectives commentBehind) offset := by
  have hhas : (Model.ofText (.ofString ".") (.ofString "m.sql") commentBehind {}).hasBlock
      "final" = true := by decide +kernel
  have hfirst : firstNamed? "final" (stripDirectives commentBehind) =
      some ⟨7, "Final".toList⟩ := by decide +kernel
  have hstart : introductionStart? "final".toList (stripDirectives commentBehind) = some 7 := by
    decide +kernel
  have hregion := regionOf_of_starts isSteadyName_final.toIsPlainName hfirst hstart
  obtain ⟨i, hi, -, hiff⟩ := finalColumns_of_reported_block_iff _ _ _ _ hhas
  rw [hfirst, Option.some.injEq] at hi
  subst hi
  exact ⟨hhas, hfirst, hregion, hiff.1 hregion⟩

/-- A model with a final block that is commented out in front of the one in use. -/
def commentBefore : List Char :=
  "--final as (select * from x),\nfinal as (select a, b from x)\n".toList

/-- An introduction behind a sign takes the region away from a block behind it. -/
theorem finalColumns_of_other_block :
    ¬∀ raw : List Char, (findBlocks (stripDirectives raw)).any (·.isNamed "final") = true →
      ∃ i, firstNamed? "final" (stripDirectives raw) = some i ∧
        introductionStart? "final".toList (stripDirectives raw) = some i.offset := by
  intro hall
  obtain ⟨i, hfirst, hstart⟩ := hall commentBefore (by decide +kernel)
  have hreported : firstNamed? "final" (stripDirectives commentBefore) =
      some ⟨30, "final".toList⟩ := by decide +kernel
  have hfound : introductionStart? "final".toList (stripDirectives commentBefore) = some 2 := by
    decide +kernel
  rw [hreported, Option.some.injEq] at hfirst
  rw [hfound, ← hfirst, Option.some.injEq] at hstart
  cases hstart

end StagingAudit
