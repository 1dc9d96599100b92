import StagingAudit.Model
import StagingAudit.Proofs.Region.Boundary

/-!
# The gate and the region

A rule that looks into a block asks twice for it: whether the model has a block of that name, and
where its region is. The first question goes by the grammar of introductions and full lower case,
the second one by word edges and simple case folding.

The second question asks for less, so it covers the first: **where the grammar finds a block under
a name, the search by that name succeeds at the same place**, and no block that a rule has seen
goes without a region (`isolation_covers_blocks`).
-/

namespace StagingAudit

/-- The search by name ends no later than at any place where it would succeed. -/
theorem exists_bodyStart?_le {name before taken after : List Char} (hname : IsPlainName name)
    (h : introduces name before.getLast? (taken ++ after) = some after) :
    ∃ start, bodyStart? name (before ++ (taken ++ after)) = some start ∧
      start ≤ byteLength (before ++ taken) := by
  obtain ⟨-, _, ⟨word, opening, -, hopens, rfl⟩, heq⟩ := (introduces_eq_some_iff hname).1 h
  obtain rfl := List.append_cancel_right heq
  have hlast : lastChar none before = before.getLast? := by simp [lastChar]
  rw [← hlast] at h
  obtain ⟨⟨before₀, rest₀⟩, hscan⟩ := Option.isSome_iff_exists.1
    (isSome_scan?_append (Option.isSome_of_eq_some h))
  refine ⟨_, by rw [bodyStart?, fromBody?, hscan]; rfl, ?_⟩
  obtain ⟨tail, htext, hfound, hfirst⟩ := scan?_eq_some_iff.1 hscan
  obtain ⟨-, _, ⟨word₀, opening₀, hsame₀, hopens₀, rfl⟩, rfl⟩ :=
    (introduces_eq_some_iff hname).1 hfound
  obtain ⟨front, rfl, -⟩ := hopens.exists_eq_concat
  obtain ⟨front₀, rfl, hfront₀, -⟩ := hopens₀.exists_eq_concat
  suffices hle : byteLength after ≤ byteLength rest₀ by
    simp only [byteLength_append]
    omega
  rcases append_split htext.symm with ⟨more, rfl, hrest⟩ | ⟨more, hmore, rfl, hrest⟩
  · -- an introduction has one parenthesis, so an earlier one does not reach over a later one
    have hparen : '(' ∉ word₀ ++ front₀ := by
      rw [List.mem_append, not_or]
      exact ⟨(hname.isName hsame₀).paren_not_mem, hfront₀⟩
    have hsplit : (word₀ ++ front₀) ++ '(' :: rest₀ = (more ++ (word ++ front)) ++ '(' :: after := by
      simpa using hrest
    obtain ⟨skipped, -, htail⟩ := exists_append_of_not_mem hsplit hparen
    have hlen := congrArg byteLength htail
    simp only [byteLength_append, byteLength_cons] at hlen
    omega
  · rw [hrest, hfirst before more rfl hmore] at h
    cases h

/-- The search by name succeeds at an introduction, and finds no later body than its own. -/
structure IsolatedAt (name text : List Char) (i : Introduction) : Prop where
  /-- the search takes the introduction from its own offset to just past its parenthesis, and the
  first body that it finds starts there at the latest -/
  found : ∃ before opening after, text = before ++ ((i.word ++ opening) ++ after) ∧
    byteLength before = i.offset ∧ OpensBody opening ∧
    introduces name before.getLast? ((i.word ++ opening) ++ after) = some after ∧
    ∃ start, bodyStart? name text = some start ∧ start ≤ byteLength (before ++ (i.word ++ opening))
  /-- there is a region -/
  region : (isolate? name text).isSome

/-- A block that goes by a name is isolated by it. -/
theorem isolatedAt_of_isNamed {name : String} {text : List Char} {i : Introduction}
    (hname : ∀ c ∈ name.toList, isWord c = true ∧ c.toNat < 0x80)
    (hi : i ∈ blockIntroductions text) (hnamed : (i.toBlock text).isNamed name = true) :
    IsolatedAt name.toList text i := by
  obtain ⟨before, opening, after, rfl, hoffset, hedge, hword, hopens⟩ :=
    exists_of_mem_blockIntroductions hi
  have hsame := sameLetters_of_isNamed (fun c hc => (hname c hc).2) hnamed
  have hplain : IsPlainName name.toList := by
    refine ⟨⟨?_, fun c hc => (hname c hc).1⟩, fun c hc => (hname c hc).2⟩
    -- an empty name is the name of no block
    intro hnil
    rw [hnil] at hsame
    exact hword.ne_nil (List.forall₂_nil_left_iff.1 hsame)
  have hintro : introduces name.toList before.getLast? ((i.word ++ opening) ++ after) =
      some after :=
    (introduces_eq_some_iff hplain).2
      ⟨by simp [hedge], _, ⟨i.word, opening, hsame, hopens, rfl⟩, rfl⟩
  obtain ⟨start, hstart, hle⟩ := exists_bodyStart?_le hplain hintro
  refine ⟨⟨before, opening, after, rfl, hoffset, hopens, hintro, start, hstart, hle⟩, ?_⟩
  obtain ⟨body, hbody, -⟩ := Option.map_eq_some_iff.1 hstart
  rw [isolate?, hbody]
  rfl

/-- **What the gate has seen is found again.** Whichever block of a text has the name that is asked
for, in any ASCII case: the search by name succeeds at the block's own offset and ends just past its
parenthesis, so the body that the search finds starts there at the latest, and there is a region.
Hence no block of a model goes without a region in the stripped text. -/
theorem isolation_covers_blocks (name : String)
    (hname : ∀ c ∈ name.toList, isWord c = true ∧ c.toNat < 0x80) :
    (∀ (text : List Char) (k : Nat) (block : Block), (findBlocks text)[k]? = some block →
      block.isNamed name = true →
      ∃ i, (blockIntroductions text)[k]? = some i ∧ block = i.toBlock text ∧
        IsolatedAt name.toList text i) ∧
    ∀ (root path : Path) (raw : List Char) (conventions : Conventions),
      (Model.ofText root path raw conventions).hasBlock name = true →
        (isolate? name.toList (Model.ofText root path raw conventions).stripped).isSome := by
  refine ⟨?_, ?_⟩
  · intro text k block hblock hnamed
    rw [findBlocks_eq_map, List.getElem?_map, Option.map_eq_some_iff] at hblock
    obtain ⟨i, hi, rfl⟩ := hblock
    exact ⟨i, hi, rfl, isolatedAt_of_isNamed hname (List.mem_of_getElem? hi) hnamed⟩
  · intro root path raw conventions hhas
    rw [Model.hasBlock, Model.block?, List.find?_isSome] at hhas
    obtain ⟨block, hmem, hnamed⟩ := hhas
    have hblocks : (Model.ofText root path raw conventions).blocks =
        (blockIntroductions (stripDirectives raw)).map (Introduction.toBlock _) := rfl
    rw [hblocks] at hmem
    obtain ⟨i, hi, rfl⟩ := List.mem_map.1 hmem
    exact (isolatedAt_of_isNamed hname hi hnamed).region

/-- Two blocks called `k`, the first one written with the Kelvin sign and behind the leading
keyword. -/
def kelvinBlocks : List Char := "with \u212a as (1),\nk as (2)".toList

/-- A block that is written with the Kelvin sign is found as `k`, behind the keyword. -/
theorem isolation_covers_kelvinBlocks :
    (∀ c ∈ "K".toList, isWord c = true ∧ c.toNat < 0x80) ∧
    (findBlocks kelvinBlocks)[0]? = some ⟨"k", 1⟩ ∧ Block.isNamed ⟨"k", 1⟩ "K" = true ∧
    (∃ i, (blockIntroductions kelvinBlocks)[0]? = some i ∧
      ⟨"k", 1⟩ = i.toBlock kelvinBlocks ∧ IsolatedAt "K".toList kelvinBlocks i) ∧
    (Model.ofText (.ofString ".") (.ofString "m.sql") kelvinBlocks {}).hasBlock "K" = true ∧
    (isolate? "K".toList
      (Model.ofText (.ofString ".") (.ofString "m.sql") kelvinBlocks {}).stripped).isSome := by
  have hname : ∀ c ∈ "K".toList, isWord c = true ∧ c.toNat < 0x80 := by decide
  have hblock : (findBlocks kelvinBlocks)[0]? = some ⟨"k", 1⟩ := by decide +kernel
  have hnamed : Block.isNamed ⟨"k", 1⟩ "K" = true := by decide
  have hhas : (Model.ofText (.ofString ".") (.ofString "m.sql") kelvinBlocks {}).hasBlock "K" =
      true := by decide +kernel
  obtain ⟨hfound, hregion⟩ := isolation_covers_blocks "K" hname
  exact ⟨hname, hblock, hnamed, hfound _ _ _ hblock hnamed, hhas, hregion _ _ _ _ hhas⟩

end StagingAudit
