import StagingAudit.Proofs.Model.Rendering
import StagingAudit.Proofs.Region.Closing
import StagingAudit.Proofs.Text.Spelling

/-!
# Chains of blocks

Blocks with any text in them, written one after the other. Their bodies may open parentheses that
they do not close and close some that they have not opened; all that is asked is that no body looks
as if it held the end of a block, or the introduction of one of the chain.

**Isolation then undoes the writing** (`Chain.isolate?_text`): the region of a name is the body that
was written under it. Behind the last block there is nothing to end its region, so this one holds
the rest of the text as well. A search goes from one block to the next, and the parenthesis behind
each body keeps what it finds in the body apart from what it finds later.
-/

namespace StagingAudit

/-- A block with any text in it. -/
structure NamedBody where
  /-- the name as it is written -/
  name : List Char
  /-- the text between the parentheses -/
  body : List Char
  /-- the name is a word in ASCII -/
  name_plain : IsPlainName name

/-- The block with its name and its parentheses. -/
def NamedBody.text (b : NamedBody) : List Char :=
  b.name ++ (PlainBlock.opening ++ (b.body ++ [')']))

/-- A text in which no block ends and none of the given blocks is introduced. -/
structure Quiet (blocks : List NamedBody) (text : List Char) : Prop where
  /-- no block ends in it -/
  ends : find? nextBlock text = none
  /-- none of the blocks is introduced in it -/
  introduces : ∀ b ∈ blocks, fromBody? b.name text = none

instance (blocks : List NamedBody) (text : List Char) : Decidable (Quiet blocks text) :=
  decidable_of_iff (find? nextBlock text = none ∧ ∀ b ∈ blocks, fromBody? b.name text = none)
    ⟨fun h => ⟨h.1, h.2⟩, fun h => ⟨h.ends, h.introduces⟩⟩

/-- Blocks of different names, and what is to stand behind them. -/
structure Chain where
  /-- the blocks, in order -/
  blocks : List NamedBody
  /-- the text behind the last block -/
  tail : List Char
  /-- the names differ by more than their case -/
  distinct : blocks.Pairwise fun b b' => sameAsciiCase b.name b'.name = false
  /-- the bodies do not look like blocks -/
  bodies_quiet : ∀ b ∈ blocks, Quiet blocks b.body
  /-- neither does the tail -/
  tail_quiet : Quiet blocks tail
  /-- the tail does not go on with the next block -/
  tail_apart : (skipWhite tail).head? ≠ some ','

/-! ## Writing -/

section Writing

variable {tail : List Char}

/-- Blocks one after the other, and a text behind them. -/
def writeBlocks (tail : List Char) (blocks : List NamedBody) : List Char :=
  [',', '\n'].intercalate (blocks.map NamedBody.text) ++ tail

/-- What stands behind the parenthesis that closes a block. -/
def behindBlock (tail : List Char) : List NamedBody → List Char
  | [] => tail
  | b :: bs => ',' :: '\n' :: writeBlocks tail (b :: bs)

/-- The text of a chain. -/
def Chain.text (c : Chain) : List Char := "with ".toList ++ writeBlocks c.tail c.blocks

theorem writeBlocks_cons (b : NamedBody) (bs : List NamedBody) :
    writeBlocks tail (b :: bs) =
      b.name ++ (PlainBlock.opening ++ (b.body ++ ')' :: behindBlock tail bs)) := by
  cases bs with
  | nil => simp [writeBlocks, behindBlock, NamedBody.text]
  | cons b' bs =>
    rw [writeBlocks, List.map_cons, List.map_cons, List.intercalate_cons_cons, behindBlock,
      writeBlocks, List.map_cons]
    simp [NamedBody.text]

theorem behindBlock_append_cons (front : List NamedBody) (b : NamedBody) (back : List NamedBody) :
    behindBlock tail (front ++ b :: back) =
      ',' :: '\n' :: writeBlocks tail (front ++ b :: back) := by
  cases front <;> rfl

end Writing

/-! ## Searching

A search for a block that starts at the block before it passes through the introduction, the body
and the parenthesis of that block. It stops in none of these. The introduction is by another name;
the body introduces no block of the chain; and a place in the body from which an introduction would
reach beyond it does not exist, as an introduction does not go past a parenthesis. So the search
goes on from what parts the two blocks, and the induction is over the blocks in front. -/

/-- A name in another case is searched for in the same way. -/
theorem introduces_eq_of_sameAsciiCase {name name' : List Char}
    (h : sameAsciiCase name name' = true) : introduces name = introduces name' := by
  funext prev cs
  rw [introduces, introduces, folded_eq_of_sameAsciiCase h]

/-- Where a name is introduced does not depend on which sign stands before the text. -/
theorem scan?_introduces_behind {name body : List Char} {c : Char} (hc : isWord c = false)
    (h : fromBody? name body = none) : scan? (introduces name) (some c) body = none := by
  have hprev : introduces name (some c) = introduces name none := by
    funext cs
    rw [introduces, introduces, wordEdge, wordEdge, isWordAt_some, hc, isWordAt_none]
  rw [fromBody?, Option.map_eq_none_iff] at h
  cases body with
  | nil => rwa [scan?, hprev, ← scan?.eq_1]
  | cons d body => rwa [scan?, hprev, ← scan?.eq_2]

/-- A search for a block passes over the blocks before it. -/
theorem exists_scan?_writeBlocks {b : NamedBody} {front : List NamedBody}
    (hfront : ∀ f ∈ front, sameAsciiCase f.name b.name = false ∧ fromBody? b.name f.body = none)
    (back : List NamedBody) (tail : List Char) {a : List Char} {c : Char}
    (hlast : a.getLast? = some c) (hc : isWord c = false) (hparen : '(' ∉ a)
    (prev : Option Char) :
    ∃ before, scan? (introduces b.name) prev (a ++ writeBlocks tail (front ++ b :: back)) =
      some (before, b.body ++ ')' :: behindBlock tail back) := by
  induction front generalizing a c prev with
  | nil =>
    rw [List.nil_append, writeBlocks_cons, scan?_introduces_before b.name_plain hlast hc hparen
      b.name_plain.toIsName, scan?_introduces_of_same b.name_plain hc (.refl _)]
    exact ⟨_, rfl⟩
  | cons f front ih =>
    obtain ⟨hname, hbody⟩ := hfront f (by simp)
    have hnot : ¬Recogniser.SameLetters b.name f.name := by
      intro hsame
      rw [sameAsciiCase_of_sameLetters b.name_plain.isAscii f.name_plain.isAscii hsame] at hname
      cases hname
    -- the parenthesis behind the body belongs to what parts the block from the next one
    obtain ⟨before, hbefore⟩ := ih (fun f' hf' => hfront f' (List.mem_cons_of_mem f hf'))
      (a := [')', ',', '\n']) rfl (by decide) (by decide) (lastChar (some '(') f.body)
    rw [List.cons_append, writeBlocks_cons, scan?_introduces_before b.name_plain hlast hc hparen
      f.name_plain.toIsName, scan?_introduces_of_not_same b.name_plain f.name_plain.toIsName hnot,
      (halts_introduces b.name_plain).scan?_append_of_none
        (scan?_introduces_behind (by decide) hbody),
      behindBlock_append_cons]
    rw [List.cons_append, List.cons_append, List.singleton_append] at hbefore
    rw [hbefore]
    exact ⟨_, rfl⟩

/-! ## The end of a region

The end of a block starts with a parenthesis. The body holds no end of a block, so the first one
starts with the parenthesis that closes the body, if another block follows. -/

/-- A region ends before the next block, or with the text when there is none. -/
theorem upToNextBlock_body {b : NamedBody} {back : List NamedBody} {tail : List Char}
    (hbody : find? nextBlock b.body = none) (htail : find? nextBlock tail = none)
    (hapart : (skipWhite tail).head? ≠ some ',') :
    upToNextBlock (b.body ++ ')' :: behindBlock tail back) =
      b.body ++ if back = [] then ')' :: tail else [] := by
  rw [upToNextBlock_append hbody, upToNextBlock]
  cases back with
  | nil =>
    have hnone : find? nextBlock (')' :: tail) = none := by
      rw [find?, scan?, nextBlock_of_head? hapart, scan?_ahead, htail]
      rfl
    rw [behindBlock, hnone, if_pos rfl]
  | cons b' back =>
    have hends : EndsBlock (')' :: ([] ++ ',' :: (['\n'] ++ (b'.name ++ PlainBlock.opening)))) :=
      .mk (by simp) (by decide) b'.name_plain.toIsName PlainBlock.opensBody_opening
    have hnext : nextBlock (')' :: behindBlock tail (b' :: back)) =
        some (b'.body ++ ')' :: behindBlock tail back) := by
      refine nextBlock_eq_some_iff.2 ⟨_, hends, ?_⟩
      rw [behindBlock, writeBlocks_cons]
      simp
    rw [find?_of_some hnext, if_neg (by simp)]

/-- **Isolation undoes the writing of a chain.** The region of a name, in any case, is the body that
was written under it; behind the last block it goes on to the end of the text. -/
theorem Chain.isolate?_text (chain : Chain) {front back : List NamedBody} {b : NamedBody}
    (hblocks : chain.blocks = front ++ b :: back) {name : List Char}
    (hname : sameAsciiCase name b.name = true) :
    isolate? name chain.text =
      some (b.body ++ if back = [] then ')' :: chain.tail else []) := by
  have hb : b ∈ chain.blocks := by simp [hblocks]
  have hfront : ∀ f ∈ front,
      sameAsciiCase f.name b.name = false ∧ fromBody? b.name f.body = none := by
    intro f hf
    have hdistinct := chain.distinct
    rw [hblocks, List.pairwise_append] at hdistinct
    exact ⟨hdistinct.2.2 f hf b (by simp),
      (chain.bodies_quiet f (by simp [hblocks, hf])).introduces b hb⟩
  obtain ⟨before, hbefore⟩ := exists_scan?_writeBlocks hfront back chain.tail
    (a := "with ".toList) (c := ' ') rfl (by decide) (by decide) none
  have htext : chain.text = "with ".toList ++ writeBlocks chain.tail chain.blocks := rfl
  rw [isolate?, fromBody?, introduces_eq_of_sameAsciiCase hname, htext, hblocks, hbefore]
  exact congrArg some (upToNextBlock_body (chain.bodies_quiet b hb).ends chain.tail_quiet.ends
    chain.tail_apart)

/-- A chain of two blocks with stray parentheses, the name of one being the start of the other. -/
def strayChain : Chain where
  blocks :=
    [⟨"src".toList, "select ')' as b, f(x".toList, ⟨⟨by decide, by decide⟩, by decide⟩⟩,
      ⟨"src_x".toList, ")), y as z ((\nfrom src as s".toList, ⟨⟨by decide, by decide⟩, by decide⟩⟩]
  tail := "\nselect * from src_x (".toList
  distinct := by decide
  bodies_quiet := by decide +kernel
  tail_quiet := by decide +kernel
  tail_apart := by decide +kernel

/-- Both bodies are found again, under their names in capitals. -/
theorem isolate?_strayChain :
    isolate? "SRC".toList strayChain.text = some "select ')' as b, f(x".toList ∧
    isolate? "Src_X".toList strayChain.text =
      some ")), y as z ((\nfrom src as s)\nselect * from src_x (".toList := by
  have hfirst := @Chain.isolate?_text strayChain [] _ _ rfl "SRC".toList (by decide)
  have hlast := @Chain.isolate?_text strayChain [_] _ _ rfl "Src_X".toList (by decide)
  exact ⟨hfirst, hlast⟩

end StagingAudit
