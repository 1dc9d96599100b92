import StagingAudit.Proofs.Block.Grammar
import StagingAudit.Proofs.Directive.Extent
import StagingAudit.Proofs.Region.Boundary
import StagingAudit.Proofs.Text.Spelling
import StagingAudit.Rule.Structure

/-!
# What is read off a text in a spelling

A model is read in stages: directives are blanked, blocks are listed, the region of a block is cut
out, and the columns of its selection are read. **Each stage gives for a text in a spelling what it
gives for the text** (`stripDirectives_write`, `findBlocks_write`, `isolate?_write`,
`any_isExplicit_selectList_write`): texts come out in the same spelling, and names, lines and
answers come out the same.

One answer is not carried over. A region in which `from` follows `select` at once has an empty
column list when two white-space characters stand between them, and none when only one does; a line
feed counts as two in one spelling and as one in the other. Neither list names a column, so a rule
cannot tell.
-/

namespace StagingAudit

namespace Spelling

variable {s : Spelling}

/-! ## Directives -/

theorem blank_spell (c : Char) : blank (s.spell c) = s.write (blankChar c) := by
  have hspaces : ∀ n, s.write (List.replicate n ' ') = List.replicate n ' ' := fun n =>
    Fixes.write_eq fun x hx => by
      rw [(List.mem_replicate.1 hx).2]
      exact fixes_of_isSign (by decide)
  rcases s.spell_cases c with ⟨d, hd, hlower⟩ | ⟨rfl, hd⟩
  · have hsize : d.utf8Size = c.utf8Size := by
      rw [← utf8Size_toLower d, hlower, utf8Size_toLower]
    have hends : (d = '\n' ∨ d = '\r') ↔ (c = '\n' ∨ c = '\r') := by
      rw [← toLower_eq_iff (by decide) d, hlower, toLower_eq_iff (by decide),
        ← toLower_eq_iff (x := '\r') (by decide) d, hlower, toLower_eq_iff (by decide)]
    rw [hd, blank, List.flatMap_singleton, blankChar, blankChar, hsize]
    by_cases hc : c = '\n' ∨ c = '\r'
    · rw [if_pos hc, if_pos (hends.2 hc), write_singleton, hd]
    · rw [if_neg hc, if_neg (mt hends.1 hc), hspaces]
  · rw [hd]
    show ['\r', '\n'] = s.write ['\n']
    rw [write_singleton, hd]

theorem blank_write (cs : List Char) : blank (s.write cs) = s.write (blank cs) := by
  induction cs with
  | nil => rfl
  | cons c cs ih => rw [write_cons, blank_append, blank_spell, ih, blank_cons, write_append]

section Strip

variable {d : Directive}

theorem fixes_opener {x : Char} (h : x ∈ d.opener) : s.Fixes x := by
  apply fixes_of_isSign
  cases d
  all_goals exact (by decide : ∀ x ∈ Directive.opener _, isSign x = true) x h

theorem fixes_closer {x : Char} (h : x ∈ d.closer) : s.Fixes x := by
  apply fixes_of_isSign
  cases d
  all_goals exact (by decide : ∀ x ∈ Directive.closer _, isSign x = true) x h

/-- The same directive starts a text. -/
theorem span?_write (cs : List Char) :
    d.span? (s.write cs) =
      (d.span? cs).map fun (span, after) => (s.write span, s.write after) := by
  rw [Directive.span?, Directive.span?, follows_literal fun _ => fixes_opener]
  cases Recogniser.literal d.opener cs with
  | none => rfl
  | some inner =>
    simp only [Option.map_some, cutAt?_write fun _ => fixes_closer]
    cases cutAt? d.closer inner with
    | none => rfl
    | some found =>
      simp only [Option.map_some, write_append, Fixes.write_eq fun _ => fixes_opener,
        Fixes.write_eq fun _ => fixes_closer]

/-- A pass blanks the same directives. -/
theorem strip_write (cs : List Char) : d.strip (s.write cs) = s.write (d.strip cs) := by
  induction cs using d.pass_induction with
  | nil => rw [write_nil, Directive.strip_nil, write_nil]
  | whole span after hwhole ih =>
    have hspan : d.span? (s.write (span ++ after)) = some (s.write span, s.write after) := by
      rw [span?_write, Directive.span?_eq_some_iff.2 ⟨hwhole, rfl⟩]
      rfl
    rw [Directive.strip_of_span? hspan, ih, blank_write, Directive.strip_whole hwhole, write_append]
  | keep c rest hspan ih =>
    have hnone : d.span? (s.write (c :: rest)) = none := by
      rw [span?_write, hspan]
      rfl
    rw [write_cons] at hnone
    rw [Directive.strip_cons hspan, write_cons, write_cons, ← ih]
    rcases s.spell_cases c with ⟨e, he, -⟩ | ⟨-, he⟩
    · rw [he] at hnone ⊢
      exact Directive.strip_cons hnone
    · -- no directive starts at either character of a line end
      rw [he]
      exact Directive.strip_blank_append (by decide) _

end Strip

/-- Stripping does not depend on the spelling. -/
theorem stripDirectives_write (cs : List Char) :
    stripDirectives (s.write cs) = s.write (stripDirectives cs) := by
  rw [stripDirectives, stripDirectives, strip_write, strip_write, strip_write]

/-! ## Blocks

The search lists offsets, and an offset is not the same in both texts. What is the same are the
blocks: their names, and the lines on which they stand. So the search is followed from a place on
together with the text in front of the place, in which the lines are counted
(`blocksFrom_write`). -/

theorem follows_openBody : s.Follows openBody :=
  follows_white1.bind ((follows_folded (by decide)).bind (follows_sign (by decide)).behindWhite)

theorem keeps_opensName : s.Keeps opensName :=
  keeps_of_toLower (apply_toLower (by decide)) (by decide)

theorem isReserved_write {word : List Char} (h : '\n' ∉ word) :
    isReserved (s.write word) = isReserved word := by
  have hlower := beq_iff_eq.1 (sameAsciiCase_write (s := s) h)
  simp only [isReserved, sameAsciiCase, hlower]

/-- A place where a name of a block starts gives the same block. -/
theorem toBlock_write {word : List Char} (h : '\n' ∉ word) (front rest : List Char) :
    (Introduction.mk (byteLength (s.write front)) (s.write word)).toBlock
        (s.write (front ++ rest)) =
      (Introduction.mk (byteLength front) word).toBlock (front ++ rest) := by
  rw [Introduction.toBlock, Introduction.toBlock, lineAt_write,
    lowerCase_eq_of_sameAsciiCase (sameAsciiCase_write h)]

/-- The introductions from a character on: that of a name which starts there, and the later ones. -/
theorem introductionsFrom_cons (start : Bool) (offset : Nat) (c : Char) (cs : List Char) :
    introductionsFrom start offset (c :: cs) =
      (if start && isWord c && (openBody (cs.dropWhile isWord)).isSome then
        [⟨offset, c :: cs.takeWhile isWord⟩] else []) ++
        introductionsFrom (opensName c) (offset + c.utf8Size) cs := by
  rw [introductionsFrom]
  split <;> rfl

/-- The same in the spelling, where the character may be written as two. -/
theorem introductionsFrom_write_cons (start : Bool) (offset : Nat) (c : Char) (cs : List Char) :
    introductionsFrom start offset (s.write (c :: cs)) =
      (if start && isWord c && (openBody (cs.dropWhile isWord)).isSome then
        [⟨offset, s.write (c :: cs.takeWhile isWord)⟩] else []) ++
        introductionsFrom (opensName c) (offset + byteLength (s.spell c)) (s.write cs) := by
  rcases s.spell_cases c with ⟨d, hd, -⟩ | ⟨rfl, hd⟩
  · have hmem : d ∈ s.spell c := by simp [hd]
    rw [write_cons, write_cons, hd, List.singleton_append, introductionsFrom_cons,
      keeps_isWord c d hmem, keeps_opensName c d hmem, dropWhile_write keeps_isWord,
      takeWhile_write keeps_isWord, follows_openBody, Option.isSome_map]
    rfl
  · -- no name starts at either character of a line end, and one may start behind it
    have hreturn : isWord '\r' = false := by decide
    have hfeed : isWord '\n' = false := by decide
    rw [write_cons, hd, List.cons_append, List.cons_append, introductionsFrom_cons,
      introductionsFrom_cons, hreturn, hfeed]
    simp only [Bool.and_false, Bool.false_and, Bool.false_eq_true, if_false, List.nil_append]
    rfl

/-- What is found from a place on gives the same blocks. -/
theorem blocksFrom_write (start : Bool) (front cs : List Char) :
    (((introductionsFrom start (byteLength (s.write front)) (s.write cs)).filter fun i =>
        !isReserved i.word).map (Introduction.toBlock (s.write (front ++ cs)))) =
      ((introductionsFrom start (byteLength front) cs).filter fun i =>
        !isReserved i.word).map (Introduction.toBlock (front ++ cs)) := by
  induction cs generalizing start front with
  | nil => rfl
  | cons c cs ih =>
    have hlater := ih (opensName c) (front ++ [c])
    rw [List.append_assoc, List.singleton_append, write_append s front [c], write_singleton,
      byteLength_append, byteLength_append] at hlater
    rw [introductionsFrom_write_cons, introductionsFrom_cons, List.filter_append,
      List.filter_append, List.map_append, List.map_append, hlater]
    congr 1
    split
    · next hhere =>
      simp only [Bool.and_eq_true] at hhere
      have hword : ∀ d ∈ c :: cs.takeWhile isWord, isWord d = true := by
        rw [List.forall_mem_cons]
        exact ⟨hhere.1.2, fun d hd => List.mem_takeWhile_imp hd⟩
      have hfeed : '\n' ∉ c :: cs.takeWhile isWord :=
        not_mem_of_forall hword (by decide)
      rw [List.filter_singleton, List.filter_singleton, isReserved_write hfeed]
      cases isReserved (c :: cs.takeWhile isWord) with
      | true => rfl
      | false => exact congrArg (fun b => [b]) (toBlock_write hfeed front (c :: cs))
    · rfl

/-- **The blocks of a text do not depend on its spelling.** -/
theorem findBlocks_write (text : List Char) : findBlocks (s.write text) = findBlocks text := by
  rw [findBlocks_eq_map, findBlocks_eq_map, blockIntroductions, blockIntroductions,
    introductions_blankLeadingWith, introductions_blankLeadingWith]
  exact blocksFrom_write true [] text

/-! ## Regions -/

/-- An introduction of a block is looked for at the same places. -/
theorem respects_introduces {name : List Char} (h : ∀ p ∈ name, isWhite (foldCase p) = false) :
    s.Respects (introduces name) s.write where
  here prev cs := by
    rw [introduces, introduces, wordEdge_write]
    split
    · exact (follows_folded h).bind follows_openBody cs
    · rfl
  inside _ _ _ := rfl

theorem fromBody?_write {name : List Char} (h : ∀ p ∈ name, isWhite (foldCase p) = false)
    (text : List Char) : fromBody? name (s.write text) = (fromBody? name text).map s.write := by
  rw [fromBody?, fromBody?, (respects_introduces h).scan?_none_write, Option.map_map,
    Option.map_map]
  rfl

theorem follows_nextBlock : s.Follows nextBlock :=
  (follows_sign (by decide)).bind ((follows_sign (by decide)).behindWhite.bind
    (follows_word.behindWhite.bind follows_openBody))

theorem upToNextBlock_write (cs : List Char) :
    upToNextBlock (s.write cs) = s.write (upToNextBlock cs) := by
  rw [upToNextBlock, upToNextBlock, (follows_nextBlock.respects fun _ _ => rfl).find?_write]
  cases find? nextBlock cs with
  | none => rfl
  | some found => rfl

/-- The region of a block is the same, in the spelling. -/
theorem isolate?_write {name : List Char} (h : ∀ p ∈ name, isWhite (foldCase p) = false)
    (text : List Char) : isolate? name (s.write text) = (isolate? name text).map s.write := by
  rw [isolate?, isolate?, fromBody?_write h, Option.map_map, Option.map_map]
  exact congrArg (Option.map · _) (funext upToNextBlock_write)

/-! ## Column lists -/

/-- A list names several columns exactly when it holds a comma or a line feed. -/
theorem isExplicit_eq (list : List Char) :
    RuleId.isExplicit list = (list.contains ',' || list.contains '\n') := by
  rw [RuleId.isExplicit, Bool.and_eq_right_iff_imp, bne_iff_ne]
  rintro h rfl
  cases h

theorem isExplicit_write (list : List Char) :
    RuleId.isExplicit (s.write list) = RuleId.isExplicit list := by
  have hcomma : s.Fixes ',' := fixes_of_isSign (by decide)
  simp only [isExplicit_eq, List.contains_eq_mem, hcomma.mem_write_iff, mem_feed_write]

theorem follows_selectKeyword : s.Follows selectKeyword := follows_folded (by decide)

theorem follows_fromClause : s.Follows fromClause :=
  (follows_folded (by decide)).bind follows_white1

/-- A region selects several columns in either text. -/
theorem any_isExplicit_selectList_write (region : List Char) :
    (selectList (s.write region)).any RuleId.isExplicit =
      (selectList region).any RuleId.isExplicit := by
  have hsearch : s.Respects (fun _ cs => (Recogniser.white1 cs).bind fromClause) s.write :=
    (follows_white1.bind follows_fromClause).respects fun _ hnone => hnone
  rw [selectList, selectList, skipWhite_write, follows_selectKeyword]
  cases selectKeyword (skipWhite region) with
  | none => rfl
  | some rest =>
    simp only [Option.map_some, Option.bind_eq_bind, Option.bind_some, follows_white1 rest]
    cases Recogniser.white1 rest with
    | none => rfl
    | some columns =>
      simp only [Option.map_some, Option.bind_some, hsearch.find?_write]
      cases find? (fun cs => (Recogniser.white1 cs).bind fromClause) columns with
      | some found =>
        show RuleId.isExplicit (trimWhite (s.write found.1)) = RuleId.isExplicit (trimWhite found.1)
        rw [trimWhite_write, isExplicit_write]
      | none =>
        -- at best the list is empty, in either text
        have hempty : ∀ (p : Prop) [Decidable p],
            (if p then some [] else none : Option (List Char)).any RuleId.isExplicit = false := by
          intro p _
          split <;> rfl
        exact (hempty _).trans (hempty _).symm

end Spelling

end StagingAudit
