import StagingAudit.Proofs.Model.Rendering
import StagingAudit.Proofs.Region.Columns
import StagingAudit.Proofs.Region.Owner

/-!
# What follows the final block

The rule on the columns of the final block is meant to judge what stands between the parentheses of
that block. Nothing tells it where the closing one is: the region of the last block goes on to the
end of the text. Two models that differ only behind the final block can therefore get different
findings, and **they do exactly when columns are carried over in one of them and not in the other**
(`finalColumns_tail_iff`, `CarriesOver`). A body without a `from` is enough for it: behind
`select *` any other query with a `from` and a line break before it will do.

The block is reported on its own line all the same, since what follows it introduces no block before
it.
-/

namespace StagingAudit

/-! ## Texts up to an introduction

The block in question is found in a text whose end is left open, so what is found before it must not
depend on what follows. It does not, up to a stop: an introduction that starts before the stop also
ends before it. And the name of the block with its opening is one. -/

section Before

variable {before more : List Char}

/-- An introduction that starts before a stop is one of the text before it. -/
theorem mem_blockIntroductions_of_append {i : Introduction}
    (hmay : mayStart before.getLast? = true) (hstops : Stops more)
    (hoffset : i.offset < byteLength before) (h : i ∈ blockIntroductions (before ++ more)) :
    i ∈ blockIntroductions before := by
  obtain ⟨hreserved, front, rest, htext, hfront, hstart, hhere⟩ := mem_blockIntroductions_iff.1 h
  rcases append_split htext.symm with ⟨v, rfl, rfl⟩ | ⟨v, -, rfl, -⟩
  · cases hlast : v.getLast? with
    | none =>
      rw [List.getLast?_eq_none_iff] at hlast
      rw [hlast, List.append_nil] at hoffset
      omega
    | some c =>
      have hc : opensName c = true := by
        rwa [List.getLast?_append, hlast, Option.some_or, mayStart_some] at hmay
      rw [nameHere_append_iff hlast (isWord_of_opensName hc) hstops] at hhere
      exact mem_blockIntroductions_iff.2 ⟨hreserved, front, v, rfl, hfront, hstart, hhere⟩
  · rw [hfront, byteLength_append] at hoffset
    omega

/-- Behind a text without a block of some name, an introduction of the name is the first one. -/
theorem exists_firstNamed?_append {name : String} {taken : List Char}
    (hname : IsSteadyName name.toList) (hmay : mayStart before.getLast? = true)
    (htaken : IntroducesBlock name.toList taken)
    (hnone : (findBlocks before).any (·.isNamed name) = false) (after : List Char) :
    ∃ i, firstNamed? name (before ++ (taken ++ after)) = some i ∧ i.offset = byteLength before := by
  obtain ⟨j, hj, hoffset, hnamed⟩ := exists_mem_blockIntroductions hname hmay htaken after
  cases hfirst : firstNamed? name (before ++ (taken ++ after)) with
  | none =>
    rw [firstNamed?, List.find?_eq_none] at hfirst
    exact absurd hnamed (hfirst j hj)
  | some i =>
    have hle : i.offset ≤ byteLength before :=
      hoffset ▸ offset_le_of_firstNamed? hfirst hj hnamed
    refine ⟨i, rfl, hle.antisymm ?_⟩
    -- otherwise it would be a block of the text before
    by_contra hlt
    obtain ⟨word, opening, hsame, hopens, rfl⟩ := htaken
    have hword := hname.toIsPlainName.isName hsame
    have hstops : Stops ((word ++ opening) ++ after) := by
      rw [List.append_assoc]
      exact stops_append hword.paren_not_mem hword.inkCount_pos hopens after
    have hmem := mem_blockIntroductions_of_append hmay hstops (Nat.lt_of_not_le hlt)
      (List.mem_of_find?_eq_some hfirst)
    rw [findBlocks_eq_map, List.any_map, List.any_eq_false] at hnone
    -- the name of a block does not depend on the text it stands in
    exact hnone i hmem (List.find?_some hfirst)

end Before

/-! ## Models with a final block -/

/-- A model in three parts: what comes before the final block, its body and what follows it. -/
def finalText (before body tail : List Char) : List Char :=
  before ++ ("final as (".toList ++ (body ++ ')' :: tail))

/-- What is judged up to the closing parenthesis of the final block: the text from the first place
on that the search by name takes for its introduction. -/
def judgedBody (before body : List Char) : List Char :=
  (fromBody? "final".toList (before ++ ("final as (".toList ++ body))).getD []

theorem introducesBlock_final : IntroducesBlock "final".toList "final as (".toList :=
  ⟨"final".toList, PlainBlock.opening, .refl _, PlainBlock.opensBody_opening, rfl⟩

section Final

variable {before body tail : List Char}

/-- The name in the middle introduces a block if it may start there. -/
theorem mayStart_of_reported
    (h : ∃ i ∈ blockIntroductions (finalText before body tail), i.offset = byteLength before) :
    mayStart before.getLast? = true := by
  obtain ⟨i, hi, hoffset⟩ := h
  obtain ⟨-, front, rest, htext, hfront, hmay, -⟩ := mem_blockIntroductions_iff.1 hi
  obtain ⟨rfl, -⟩ := eq_of_byteLength_eq htext (hoffset.symm.trans hfront)
  exact hmay

/-- A search for the final block succeeds there at the latest. -/
theorem introduces_final (hmay : mayStart before.getLast? = true) (rest : List Char) :
    introduces "final".toList (lastChar none before) ("final as (".toList ++ rest) = some rest := by
  refine (introduces_eq_some_iff isSteadyName_final.toIsPlainName).2
    ⟨?_, _, introducesBlock_final, rfl⟩
  rw [lastChar, Option.or_none, isWordAt_of_mayStart hmay]
  rfl

theorem fromBody?_judgedBody (hmay : mayStart before.getLast? = true) (body : List Char) :
    fromBody? "final".toList (before ++ ("final as (".toList ++ body)) =
      some (judgedBody before body) := by
  have hsome : (fromBody? "final".toList (before ++ ("final as (".toList ++ body))).isSome := by
    rw [fromBody?, Option.isSome_map]
    refine isSome_scan?_append ?_
    rw [introduces_final hmay]
    rfl
  obtain ⟨judged, hjudged⟩ := Option.isSome_iff_exists.1 hsome
  rw [judgedBody, hjudged]
  rfl

/-- This is the body of the final block if nothing before it reads like its introduction. -/
theorem judgedBody_eq (hmay : mayStart before.getLast? = true)
    (h : fromBody? "final".toList before = none) : judgedBody before body = body := by
  have hfound := introduces_final hmay body
  have hstops : Stops ("final as (".toList ++ body) :=
    PlainBlock.stops_name (isSteadyName_final.toIsName) body
  rw [fromBody?, Option.map_eq_none_iff] at h
  rw [judgedBody, fromBody?, scan?_introduces_append isSteadyName_final.toIsPlainName
    (isWordAt_of_mayStart hmay) hstops h, scan?_of_some hfound]
  rfl

/-- The region that is judged goes on behind the closing parenthesis. -/
theorem isolate?_finalText (hmay : mayStart before.getLast? = true) (body tail : List Char) :
    isolate? "final".toList (finalText before body tail) =
      some (upToNextBlock (judgedBody before body ++ ')' :: tail)) := by
  have htext : finalText before body tail =
      (before ++ ("final as (".toList ++ body)) ++ ')' :: tail := by
    simp only [finalText, List.append_assoc]
  rw [isolate?, htext, fromBody?_append isSteadyName_final.toIsPlainName
    (fromBody?_judgedBody hmay body)]
  rfl

/-- The rule reports one thing only, on the line of the block. -/
theorem exists_report (severity : Severity) :
    ∃ report : Nat → Violation, (∀ line, (report line).line = some line) ∧
      ∀ (m : Model) (block : Block), m.block? "final" = some block →
        RuleId.checkFinalExplicitColumns severity m =
          if ((isolate? "final".toList m.stripped).bind selectList).any RuleId.isExplicit then []
          else [report block.line] := by
  refine ⟨fun line => RuleId.finalExplicitColumns.violation severity ?_ (some line) ?_,
    fun _ => rfl, fun m block hblock => ?_⟩
  rotate_left 2
  · rw [RuleId.checkFinalExplicitColumns, hblock]

/-- **What the rule finds**: its one violation, on the line of the final block, unless several
columns are listed up to the closing parenthesis or columns are carried over it. -/
theorem check_finalText (hmay : mayStart before.getLast? = true)
    (hnone : (findBlocks before).any (·.isNamed "final") = false) (body : List Char)
    (root path : Path) (conventions : Conventions) (severity : Severity) :
    ∃ v, v.line = some (before.count '\n' + 1) ∧ ∀ tail, '\x7b' ∉ finalText before body tail →
      RuleId.checkFinalExplicitColumns severity
          (Model.ofText root path (finalText before body tail) conventions) =
        if SelectsSeveral (upToNextBlock (judgedBody before body)) ∨
            CarriesOver (judgedBody before body) tail then [] else [v] := by
  obtain ⟨report, hline, hreport⟩ := exists_report severity
  refine ⟨report (before.count '\n' + 1), hline _, fun tail hbrace => ?_⟩
  have hstrip : stripDirectives (finalText before body tail) = finalText before body tail := by
    rw [stripDirectives, Directive.strip_of_not_mem hbrace, Directive.strip_of_not_mem hbrace,
      Directive.strip_of_not_mem hbrace]
  obtain ⟨i, hfirst, hoffset⟩ := exists_firstNamed?_append isSteadyName_final hmay
    introducesBlock_final hnone (body ++ ')' :: tail)
  have hblock : (Model.ofText root path (finalText before body tail) conventions).block? "final" =
      some (i.toBlock (finalText before body tail)) := by
    show (findBlocks (stripDirectives (finalText before body tail))).find? _ = _
    rw [hstrip, find?_findBlocks, finalText, hfirst]
    rfl
  have hat : (i.toBlock (finalText before body tail)).line = before.count '\n' + 1 := by
    rw [Introduction.toBlock, hoffset, finalText, lineAt_append]
  have hregion : isolate? "final".toList
      (Model.ofText root path (finalText before body tail) conventions).stripped =
        some (upToNextBlock (judgedBody before body ++ ')' :: tail)) := by
    show isolate? "final".toList (stripDirectives (finalText before body tail)) = _
    rw [hstrip, isolate?_finalText hmay]
  rw [hreport _ _ hblock, hat, hregion]
  exact if_congr (selectsSeveral_append_closing (judgedBody before body) tail) rfl rfl

end Final

/-- What the rule finds in a model that goes on in a given way behind its final block. -/
def finalFindings (severity : Severity) (root path : Path) (conventions : Conventions)
    (before body tail : List Char) : List Violation :=
  RuleId.checkFinalExplicitColumns severity
    (.ofText root path (finalText before body tail) conventions)

/-- **The text behind the final block.** Let two models without directives differ only behind the
closing parenthesis of a block that is found as `final`, and let no block before it go by that name.
The rule on its columns then finds the same in both exactly when both carry columns over the
parenthesis or neither does. It finds its one violation in a model that carries none over, unless
several columns are listed up to the parenthesis. If nothing before the block reads like its
introduction, these can only be in its body, and for `select *` they are not. -/
theorem finalColumns_tail_iff {before body tail tail' : List Char}
    (hbrace : ∀ t ∈ [tail, tail'], '\x7b' ∉ finalText before body t)
    (hreported : ∀ t ∈ [tail, tail'],
      ∃ i ∈ blockIntroductions (finalText before body t), i.offset = byteLength before)
    (hnone : (findBlocks before).any (·.isNamed "final") = false)
    (severity : Severity) (root path : Path) (conventions : Conventions) :
    (finalFindings severity root path conventions before body tail =
        finalFindings severity root path conventions before body tail' ↔
      (CarriesOver (judgedBody before body) tail ↔ CarriesOver (judgedBody before body) tail')) ∧
    ((∃ v, finalFindings severity root path conventions before body tail = [v]) ↔
      ¬SelectsSeveral (upToNextBlock (judgedBody before body)) ∧
        ¬CarriesOver (judgedBody before body) tail) ∧
    (fromBody? "final".toList before = none → judgedBody before body = body ∧
      (body = "select *".toList →
        ((∃ v, finalFindings severity root path conventions before body tail = [v]) ↔
          ¬CarriesOver body tail))) := by
  have hmay := mayStart_of_reported (hreported tail (by simp))
  obtain ⟨v, -, hcheck⟩ := check_finalText hmay hnone body root path conventions severity
  have hfindings := hcheck tail (hbrace tail (by simp))
  have hfindings' := hcheck tail' (hbrace tail' (by simp))
  have hone : (∃ v, finalFindings severity root path conventions before body tail = [v]) ↔
      ¬SelectsSeveral (upToNextBlock (judgedBody before body)) ∧
        ¬CarriesOver (judgedBody before body) tail := by
    rw [finalFindings, hfindings, ← not_or]
    split
    · next hor => simp [hor]
    · next hor => exact iff_of_true ⟨v, rfl⟩ hor
  refine ⟨?_, hone, fun h => ⟨judgedBody_eq hmay h, ?_⟩⟩
  · rw [finalFindings, finalFindings, hfindings, hfindings']
    by_cases hseveral : SelectsSeveral (upToNextBlock (judgedBody before body))
    · have hno : ∀ t, ¬CarriesOver (judgedBody before body) t :=
        fun t hcarries => hcarries.not_selectsSeveral hseveral
      simp [hseveral, hno]
    · by_cases hcarries : CarriesOver (judgedBody before body) tail
      all_goals simp [hseveral, hcarries]
  · rintro rfl
    rw [hone, judgedBody_eq hmay h]
    exact and_iff_right (by decide +kernel)

/-- A query on one line behind the final block makes no difference, and `select *` is reported. -/
theorem finalColumns_of_plainTail :
    finalFindings .error (.ofString ".") (.ofString "m.sql") {} "with ".toList "select *".toList
        " select * from final\n".toList =
      finalFindings .error (.ofString ".") (.ofString "m.sql") {} "with ".toList "select *".toList
        [] ∧
    ∃ v, finalFindings .error (.ofString ".") (.ofString "m.sql") {} "with ".toList
      "select *".toList " select * from final\n".toList = [v] := by
  have hbrace : ∀ t ∈ [" select * from final\n".toList, []],
      '\x7b' ∉ finalText "with ".toList "select *".toList t := by decide +kernel
  have hreported : ∀ t ∈ [" select * from final\n".toList, []],
      ∃ i ∈ blockIntroductions (finalText "with ".toList "select *".toList t),
        i.offset = byteLength "with ".toList := by decide +kernel
  have hno : ∀ t ∈ [" select * from final\n".toList, []],
      ¬CarriesOver "select *".toList t := by decide +kernel
  obtain ⟨hsame, -, hfound⟩ := finalColumns_tail_iff hbrace hreported (by decide +kernel) .error
    (.ofString ".") (.ofString "m.sql") {}
  obtain ⟨hjudged, hstar⟩ := hfound (by decide +kernel)
  rw [hjudged] at hsame
  exact ⟨hsame.2 (iff_of_false (hno _ (by simp)) (hno _ (by simp))),
    (hstar rfl).2 (hno _ (by simp))⟩

/-- The same query on a line of its own hides that `select *` is all there is. -/
theorem finalColumns_of_queryBehind :
    (findBlocks (finalText "with ".toList "select *".toList "\nselect * from final\n".toList)).map
        (·.name) = ["final"] ∧
    finalFindings .error (.ofString ".") (.ofString "m.sql") {} "with ".toList "select *".toList
      "\nselect * from final\n".toList = [] ∧
    (finalFindings .error (.ofString ".") (.ofString "m.sql") {} "with ".toList "select *".toList
      []).map (·.code) = ["FINAL_EXPLICIT_COLUMNS"] := by
  decide +kernel

end StagingAudit
