import StagingAudit.Proofs.Rule.Blocks

/-!
# Where the order breaks

The rule on the order of blocks compares the required names as they stand with the canonical ones
that a model has, and walks along both lists to find the line it reports. The walk stops behind
what the two have in common (`exists_firstMisplaced?_eq`). It could run out of blocks before it
stops, and the finding would have no line. That takes more canonical names than blocks, and there
are never more, since each of these names is that of a block. **Out of order means that the
canonical places do not strictly increase, and then there is always a line**
(`blockOrder_points_behind_prefix`).
-/

namespace StagingAudit

/-! ## Common prefixes

The walk compares the required names with the canonical ones, place by place, and answers the block
at the first difference. It can also end because one of the lists does. If the canonical names end
first the block is one too many, for instance one that is repeated; if the blocks ended first there
would be no block to answer. `IsLongestCommonPrefix.length_lt` excludes the second case by counting:
canonical names are not repeated, and each of them is the name of a block. -/

/-- A list starts two others, and none that starts both is longer. -/
structure IsLongestCommonPrefix {α : Type} (p a b : List α) : Prop where
  /-- it starts the first one -/
  left : p <+: a
  /-- it starts the second one -/
  right : p <+: b
  /-- no longer list does both -/
  longest : ∀ q, q <+: a → q <+: b → q.length ≤ p.length

namespace IsLongestCommonPrefix

variable {α : Type} {p a b : List α} {x y : α}

theorem of_nil_left (b : List α) : IsLongestCommonPrefix [] [] b :=
  ⟨List.nil_prefix, List.nil_prefix, fun _ hq _ => hq.length_le⟩

theorem of_nil_right (a : List α) : IsLongestCommonPrefix [] a [] :=
  ⟨List.nil_prefix, List.nil_prefix, fun _ _ hq => hq.length_le⟩

/-- Lists that start differently have nothing in common. -/
theorem of_ne (h : x ≠ y) : IsLongestCommonPrefix [] (x :: a) (y :: b) := by
  refine ⟨List.nil_prefix, List.nil_prefix, fun q hleft hright => ?_⟩
  cases q with
  | nil => simp
  | cons z q => exact absurd ((List.cons_prefix_cons.1 hleft).1.symm.trans
      (List.cons_prefix_cons.1 hright).1) h

/-- What two lists start with is common to both. -/
theorem cons (h : IsLongestCommonPrefix p a b) :
    IsLongestCommonPrefix (x :: p) (x :: a) (x :: b) := by
  refine ⟨List.cons_prefix_cons.2 ⟨rfl, h.left⟩, List.cons_prefix_cons.2 ⟨rfl, h.right⟩,
    fun q hleft hright => ?_⟩
  cases q with
  | nil => simp
  | cons z q =>
    have hle := h.longest q (List.cons_prefix_cons.1 hleft).2 (List.cons_prefix_cons.1 hright).2
    simpa using hle

/-- A list of members of another one has a member behind what it has in common with those of the
other that occur in it, unless it is the same as these. -/
theorem length_lt [DecidableEq α] {l r : List α} (hr : r.Nodup)
    (hp : IsLongestCommonPrefix p l (r.filter fun x => x ∈ l))
    (hne : l ≠ r.filter fun x => x ∈ l) : p.length < l.length := by
  by_contra hlong
  obtain rfl : p = l := hp.left.eq_of_length_le (by omega)
  -- each of the others occurs in the list, so they are no more than it has members
  have hsub : (r.filter fun x => x ∈ p) ⊆ p := fun x hx => by simpa using (List.mem_filter.1 hx).2
  have hlen : (r.filter fun x => x ∈ p).length ≤ p.length :=
    (hr.filter _).length_le_of_subset hsub
  exact hne (hp.right.eq_of_length_le hlen)

end IsLongestCommonPrefix

/-- The walk stops at the block behind the longest common prefix, if there is one. -/
theorem exists_firstMisplaced?_eq (blocks : List Block) (names : List String) :
    ∃ p, IsLongestCommonPrefix p (blocks.map (·.name)) names ∧
      RuleId.firstMisplaced? blocks names = blocks[p.length]? := by
  fun_induction RuleId.firstMisplaced? blocks names with
  | case1 names => exact ⟨[], .of_nil_left names, rfl⟩
  | case2 b bs => exact ⟨[], .of_nil_right _, rfl⟩
  | case3 b bs ns ih =>
    obtain ⟨p, hp, hfound⟩ := ih
    exact ⟨b.name :: p, hp.cons, hfound⟩
  | case4 b bs n ns hne => exact ⟨[], .of_ne hne, rfl⟩

/-- A block that is repeated is misplaced the second time. -/
example :
    RuleId.firstMisplaced? [⟨"source", 1⟩, ⟨"renamed", 5⟩, ⟨"source", 9⟩] ["source", "renamed"] =
      some ⟨"source", 9⟩ := by decide

/-! ## The rule -/

/-- **The rule on order points behind the longest common prefix.** It is silent exactly when the
canonical places of the required blocks strictly increase. Otherwise it reports once, on the line
of the block behind the longest prefix that the names share with the canonical ones, and there
always is such a block. -/
theorem blockOrder_points_behind_prefix (severity : Severity) (root path : Path) (raw : List Char)
    (conventions : Conventions) :
    (RuleId.blockOrder.check severity (Model.ofText root path raw conventions) = [] ↔
      PlacesIncrease (requiredIn raw)) ∧
    (RuleId.blockOrder.check severity (Model.ofText root path raw conventions) = [] ∨
      ∃ v p block, RuleId.blockOrder.check severity (Model.ofText root path raw conventions) = [v] ∧
        IsLongestCommonPrefix p ((requiredIn raw).map (·.name))
          (canonicalOf ((requiredIn raw).map (·.name))) ∧
        (requiredIn raw)[p.length]? = some block ∧ v.line = some block.line) := by
  rw [RuleId.check, RuleId.checkBlockOrder_eq, ← names_eq_canonicalOf_iff]
  by_cases heq : (requiredIn raw).map (·.name) = canonicalOf ((requiredIn raw).map (·.name))
  · rw [if_pos heq]
    exact ⟨iff_of_true rfl heq, .inl rfl⟩
  · rw [if_neg heq]
    obtain ⟨p, hp, hfound⟩ :=
      exists_firstMisplaced?_eq (requiredIn raw) (canonicalOf ((requiredIn raw).map (·.name)))
    have hlt : p.length < (requiredIn raw).length := by
      simpa using hp.length_lt (by decide) heq
    refine ⟨iff_of_false (List.cons_ne_nil _ _) heq,
      .inr ⟨_, p, (requiredIn raw)[p.length], rfl, hp, List.getElem?_eq_getElem hlt, ?_⟩⟩
    rw [RuleId.violation, hfound, List.getElem?_eq_getElem hlt, Option.map_some]

end StagingAudit
