import Mathlib.Data.List.Sort
import StagingAudit.Proofs.Text.Letter
import StagingAudit.Rule.Battery

/-!
# Presence and order of blocks

Two rules look at the names of a model's blocks and at nothing else. `structuralCodes` says in
terms of these names what they report: one finding for a model without blocks, else one for each
required name that is missing, and one more when the required names are out of order. **The order
is right exactly when the canonical positions strictly increase** (`eq_filter_iff_pairwise`), so a
name that is repeated counts as out of order too.
-/

namespace StagingAudit

/-- Whether the required names in a list stand in canonical order, each at most once. -/
def InOrder (names : List String) : Prop :=
  ((names.filter fun n => n ∈ requiredBlocks).map fun n => requiredBlocks.idxOf n).Pairwise (· < ·)

instance (names : List String) : Decidable (InOrder names) :=
  inferInstanceAs (Decidable (List.Pairwise _ _))

/-- What is reported on the blocks of a model with the given names. -/
def structuralCodes (names : List String) : List String :=
  if names = [] then ["CTE_PATTERN"]
  else
    ((requiredBlocks.filter fun n => n ∉ names).map fun n =>
      "CTE_MISSING_" ++ n.map Char.toUpper) ++
      if InOrder names then [] else ["CTE_ORDER"]

/-! ## Canonical order

The rule on order compares the required names of a text with the canonical list, as far as it has
them. Two things make these differ: a name that stands before an earlier one, and a name that stands
there twice. Read as positions in the canonical list both are the same, namely a position that is
not greater than the one before it. So the equality of the two lists comes to positions that
strictly increase. -/

/-- Positions in a list without repetitions increase along it. -/
theorem pairwise_idxOf {α : Type} [DecidableEq α] {r : List α} (hr : r.Nodup) :
    r.Pairwise fun x y => r.idxOf x < r.idxOf y := by
  rw [List.pairwise_iff_getElem]
  intro i j hi hj hij
  rwa [hr.idxOf_getElem, hr.idxOf_getElem]

/-- A list is what another one without repetitions has of it exactly when the positions of its
members strictly increase. -/
theorem eq_filter_iff_pairwise {α : Type} [DecidableEq α] {l r : List α} (hr : r.Nodup)
    (hl : ∀ x ∈ l, x ∈ r) :
    l = r.filter (fun x => x ∈ l) ↔ (l.map fun x => r.idxOf x).Pairwise (· < ·) := by
  have hsorted : (r.filter fun x => x ∈ l).Pairwise fun x y => r.idxOf x < r.idxOf y :=
    (pairwise_idxOf hr).filter _
  rw [List.pairwise_map]
  refine ⟨?_, ?_⟩
  · intro heq
    rw [heq]
    exact hsorted
  · intro hpairwise
    have : Std.Irrefl fun x y : α => r.idxOf x < r.idxOf y := ⟨fun x => Nat.lt_irrefl _⟩
    have : Std.Antisymm fun x y : α => r.idxOf x < r.idxOf y :=
      ⟨fun x y hxy hyx => absurd hxy (Nat.lt_asymm hyx)⟩
    -- both lists are sorted by the same positions, so it is enough to compare their members
    refine hpairwise.eq_of_mem_iff hsorted fun x => ?_
    rw [List.mem_filter, decide_eq_true_iff]
    exact ⟨fun hx => ⟨hl x hx, hx⟩, fun hx => hx.2⟩

/-! ## Names of blocks

A model is asked for a block under a name in any ASCII case, while the names of its blocks are in
lower case already. For a name in lower case, as the required ones are, the question is then whether
it is one of the names, and the two rules can be described by the list of names alone. -/

/-- A block of a text has a lower-case name exactly when it is written so. -/
theorem isNamed_iff_of_mem {block : Block} {text : List Char} (h : block ∈ findBlocks text)
    {name : String} (hname : name.toList.map Char.toLower = name.toList) :
    block.isNamed name = true ↔ block.name = name := by
  obtain ⟨i, -, rfl⟩ := List.mem_map.1 h
  rw [Block.isNamed, sameAsciiCase, beq_iff_eq, String.toList_ofList, map_toLower_lowerCase, hname]
  refine ⟨?_, ?_⟩
  · intro heq
    rw [heq, String.ofList_toList]
  · intro heq
    rw [← heq, String.toList_ofList]

variable {root path : Path} {raw : List Char} {conventions : Conventions}

/-- A model has a block of a lower-case name exactly when the name is among those of its blocks. -/
theorem hasBlock_iff {name : String} (hname : name.toList.map Char.toLower = name.toList) :
    (Model.ofText root path raw conventions).hasBlock name = true ↔
      name ∈ (Model.ofText root path raw conventions).blockNames := by
  rw [Model.hasBlock, Model.block?, List.find?_isSome, Model.blockNames, List.mem_map]
  refine ⟨?_, ?_⟩
  · rintro ⟨block, hmem, hnamed⟩
    exact ⟨block, hmem, (isNamed_iff_of_mem hmem hname).1 hnamed⟩
  · rintro ⟨block, hmem, heq⟩
    exact ⟨block, hmem, (isNamed_iff_of_mem hmem hname).2 heq⟩

/-- The required names are in lower case. -/
theorem map_toLower_of_required {name : String} (h : name ∈ requiredBlocks) :
    name.toList.map Char.toLower = name.toList :=
  (by decide : ∀ n ∈ requiredBlocks, n.toList.map Char.toLower = n.toList) name h

/-! ## Required blocks -/

/-- The blocks of a model text whose names are required, in the order of the text. -/
def requiredIn (raw : List Char) : List Block :=
  (findBlocks (stripDirectives raw)).filter fun b => b.name ∈ requiredBlocks

/-- The canonical names, those of them that are in a list. -/
def canonicalOf (names : List String) : List String := requiredBlocks.filter fun n => n ∈ names

/-- Whether the canonical places of some blocks strictly increase: none stands before an earlier
one, and none is repeated. -/
def PlacesIncrease (blocks : List Block) : Prop :=
  (blocks.map fun b => requiredBlocks.idxOf b.name).Pairwise (· < ·)

/-- The required names of a model are those of its required blocks. -/
theorem map_name_requiredIn :
    (requiredIn raw).map (·.name) =
      (Model.ofText root path raw conventions).blockNames.filter fun n => n ∈ requiredBlocks := by
  rw [Model.blockNames, List.filter_map]
  rfl

/-- The canonical names that a model has are those of its required blocks. -/
theorem filter_hasBlock :
    requiredBlocks.filter (Model.ofText root path raw conventions).hasBlock =
      canonicalOf ((requiredIn raw).map (·.name)) := by
  rw [canonicalOf, @map_name_requiredIn root path raw conventions]
  refine List.filter_congr fun name hname => ?_
  rw [Bool.eq_iff_iff, hasBlock_iff (map_toLower_of_required hname), decide_eq_true_iff,
    List.mem_filter, decide_eq_true_iff, and_iff_left hname]

/-- Required blocks are in canonical order when their places strictly increase. -/
theorem names_eq_canonicalOf_iff :
    (requiredIn raw).map (·.name) = canonicalOf ((requiredIn raw).map (·.name)) ↔
      PlacesIncrease (requiredIn raw) := by
  have hrequired : ∀ n ∈ (requiredIn raw).map (·.name), n ∈ requiredBlocks := by
    intro n hn
    obtain ⟨b, hb, rfl⟩ := List.mem_map.1 hn
    simpa using (List.mem_filter.1 hb).2
  rw [canonicalOf, eq_filter_iff_pairwise (by decide) hrequired, List.map_map]
  rfl

/-- The names of a model are in order when those of its required blocks are. -/
theorem inOrder_blockNames_iff :
    InOrder (Model.ofText root path raw conventions).blockNames ↔
      PlacesIncrease (requiredIn raw) := by
  rw [InOrder, ← map_name_requiredIn, List.map_map]
  rfl

/-! ## The two rules

The first rule asks for each required name whether it is there, the second one asks once whether
those that are there are in order. A text without any block is reported by the first one as such,
and the names that it lacks are not listed. -/

namespace RuleId

/-- The codes of the first rule: one for a model without blocks, or one for each missing name. -/
theorem codes_checkBlockPresence (severity : Severity) :
    (checkBlockPresence severity (Model.ofText root path raw conventions)).map (·.code) =
      if (Model.ofText root path raw conventions).blockNames = [] then ["CTE_PATTERN"]
      else (requiredBlocks.filter fun n =>
        n ∉ (Model.ofText root path raw conventions).blockNames).map fun n =>
          "CTE_MISSING_" ++ n.map Char.toUpper := by
  have hmissing : (requiredBlocks.filter fun n =>
      !(Model.ofText root path raw conventions).hasBlock n) =
      requiredBlocks.filter fun n => n ∉ (Model.ofText root path raw conventions).blockNames := by
    refine List.filter_congr fun name hname => ?_
    rw [Bool.eq_iff_iff, Bool.not_eq_true', ← Bool.not_eq_true, decide_eq_true_iff,
      hasBlock_iff (map_toLower_of_required hname)]
  unfold checkBlockPresence
  split
  · next hblocks =>
    rw [if_pos (by rw [Model.blockNames, hblocks, List.map_nil])]
    rfl
  · next hblocks =>
    rw [if_neg (by rw [Model.blockNames, hblocks]; simp), hmissing, List.map_map]
    rfl

/-- What the second rule reports, in terms of the required blocks. -/
theorem checkBlockOrder_eq (severity : Severity) :
    checkBlockOrder severity (Model.ofText root path raw conventions) =
      if (requiredIn raw).map (·.name) = canonicalOf ((requiredIn raw).map (·.name)) then []
      else
        [blockOrder.violation severity
          ("CTEs are out of order. Found: " ++ quotedList ((requiredIn raw).map (·.name)) ++
            ", expected: " ++ quotedList (canonicalOf ((requiredIn raw).map (·.name))) ++ ".")
          ((firstMisplaced? (requiredIn raw)
            (canonicalOf ((requiredIn raw).map (·.name)))).map (·.line))
          ("Reorder CTEs to: " ++ String.intercalate " → " requiredBlocks ++ ".")] := by
  have hfilter : ((Model.ofText root path raw conventions).blocks.filter fun b =>
      requiredBlocks.contains b.name) = requiredIn raw := by
    refine List.filter_congr fun b _ => ?_
    rw [Bool.eq_iff_iff, List.contains_iff_mem, decide_eq_true_iff]
  unfold checkBlockOrder
  dsimp only
  rw [hfilter, filter_hasBlock]

/-- The codes of the second rule: one when the required names are out of order. -/
theorem codes_checkBlockOrder (severity : Severity) :
    (checkBlockOrder severity (Model.ofText root path raw conventions)).map (·.code) =
      if InOrder (Model.ofText root path raw conventions).blockNames then []
      else ["CTE_ORDER"] := by
  rw [checkBlockOrder_eq, apply_ite (List.map _)]
  exact if_congr (names_eq_canonicalOf_iff.trans inOrder_blockNames_iff.symm) rfl rfl

/-- Together the two rules report the structural codes. -/
theorem codes_structure (severity severity' : Severity) :
    (checkBlockPresence severity (Model.ofText root path raw conventions)).map (·.code) ++
      (checkBlockOrder severity' (Model.ofText root path raw conventions)).map (·.code) =
        structuralCodes (Model.ofText root path raw conventions).blockNames := by
  rw [codes_checkBlockPresence, codes_checkBlockOrder, structuralCodes]
  by_cases hnil : (Model.ofText root path raw conventions).blockNames = []
  · rw [if_pos hnil, if_pos hnil, hnil]
    rfl
  · rw [if_neg hnil, if_neg hnil]

end RuleId

end StagingAudit
