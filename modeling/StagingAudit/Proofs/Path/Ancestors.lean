import Mathlib.Data.List.DropRight
import StagingAudit.Proofs.Path.Joining

/-!
# Ancestors of paths

The parent of an absolute path has all its components but the last one (`components_of_parent?`),
so **the components of an ancestor are the first ones of the path** (`isPrefix_of_mem_ancestors`).
This is said of texts: `..` is a component as good as a name, and the parent of `a/..` is `a`.
-/

namespace StagingAudit

namespace Path

variable {p q : Path} {pieces : List (List Char)}

/-! ## Texts from pieces -/

theorem dropIdleEnd_eq (pieces : List (List Char)) :
    dropIdleEnd pieces = pieces.rdropWhile isIdle := rfl

theorem mem_of_mem_dropIdleEnd {piece : List Char} (h : piece ∈ dropIdleEnd pieces) :
    piece ∈ pieces :=
  (List.rdropWhile_prefix isIdle pieces).mem h

/-- Idle pieces at the end stand for no component. -/
theorem filterMap_dropIdleEnd (pieces : List (List Char)) :
    (dropIdleEnd pieces).filterMap component? = pieces.filterMap component? := by
  rw [dropIdleEnd_eq]
  induction pieces using List.reverseRecOn with
  | nil => rfl
  | append_singleton pieces piece ih =>
    rw [List.rdropWhile_concat]
    split
    · next hidle => simp [ih, component?_eq_none_iff.2 hidle]
    · rfl

/-- The last piece that is not idle stands for a component. -/
theorem exists_of_dropIdleEnd_ne_nil (h : dropIdleEnd pieces ≠ []) :
    ∃ before last k, dropIdleEnd pieces = before ++ [last] ∧ component? last = some k := by
  have hlast := List.rdropWhile_last_not isIdle pieces h
  obtain ⟨k, hk⟩ := Option.ne_none_iff_exists'.1 (mt component?_eq_none_iff.1 hlast)
  exact ⟨_, _, k, (List.dropLast_append_getLast h).symm, hk⟩

theorem isAbsolute_ofPieces (pieces : List (List Char)) :
    (ofPieces (some .root) pieces).isAbsolute := rfl

theorem steps_ofPieces (hsep : ∀ piece ∈ pieces, '/' ∉ piece) :
    (ofPieces (some .root) pieces).steps = pieces.filterMap component? := by
  have hsplit : splitAt '/' (ofPieces (some .root) pieces).chars =
      [] :: splitAt '/' (joinPieces pieces) := if_pos rfl
  rw [steps, hsplit, List.filterMap_cons_none rfl]
  exact steps_joinPieces hsep

/-! ## Parents -/

/-- The parent of an absolute path is absolute and lacks its last component. -/
theorem components_of_parent? (h : p.isAbsolute) (hq : p.parent? = some q) :
    q.isAbsolute ∧ ∃ k, p.components = q.components ++ [k] := by
  rw [parent?, head?_of_isAbsolute h] at hq
  split at hq
  · cases hq
  · next hne =>
    obtain ⟨before, last, k, hpieces, hk⟩ := exists_of_dropIdleEnd_ne_nil hne
    obtain rfl := Option.some.inj hq
    have hsep : ∀ piece ∈ dropIdleEnd before, '/' ∉ piece := by
      intro piece hpiece
      have hend : piece ∈ dropIdleEnd p.pieces :=
        hpieces ▸ List.mem_append_left _ (mem_of_mem_dropIdleEnd hpiece)
      exact separator_not_mem_pieces (mem_of_mem_dropIdleEnd hend)
    refine ⟨isAbsolute_ofPieces _, k, ?_⟩
    rw [hpieces, List.dropLast_concat, components_of_isAbsolute h,
      components_of_isAbsolute (isAbsolute_ofPieces _), steps_ofPieces hsep, filterMap_dropIdleEnd,
      ← filterMap_pieces, ← filterMap_dropIdleEnd, hpieces, List.filterMap_append]
    simp [hk]

/-! ## Ancestors -/

theorem isPrefix_of_mem_ancestorsUpTo {n : Nat} (h : p.isAbsolute) (hq : q ∈ ancestorsUpTo n p) :
    q.isAbsolute ∧ q.components <+: p.components := by
  induction n generalizing p with
  | zero =>
    obtain rfl := List.mem_singleton.1 hq
    exact ⟨h, List.prefix_rfl⟩
  | succ n ih =>
    rw [ancestorsUpTo] at hq
    split at hq
    · next parent hparent =>
      obtain ⟨habsolute, k, hk⟩ := components_of_parent? h hparent
      rcases List.mem_cons.1 hq with rfl | hq
      · exact ⟨h, List.prefix_rfl⟩
      · obtain ⟨hq, hprefix⟩ := ih habsolute hq
        exact ⟨hq, hprefix.trans ⟨[k], hk.symm⟩⟩
    · obtain rfl := List.mem_singleton.1 hq
      exact ⟨h, List.prefix_rfl⟩

/-- The ancestors of an absolute path are absolute, and their components are its first ones. -/
theorem isPrefix_of_mem_ancestors (h : p.isAbsolute) (hq : q ∈ p.ancestors) :
    q.isAbsolute ∧ q.components <+: p.components :=
  isPrefix_of_mem_ancestorsUpTo h hq

/-- Later ancestors are ancestors of the earlier ones. -/
theorem pairwise_ancestorsUpTo {n : Nat} (h : p.isAbsolute) :
    (ancestorsUpTo n p).Pairwise fun a b => b.components <+: a.components := by
  induction n generalizing p with
  | zero => exact List.pairwise_singleton _ _
  | succ n ih =>
    rw [ancestorsUpTo]
    split
    · next parent hparent =>
      obtain ⟨habsolute, k, hk⟩ := components_of_parent? h hparent
      refine List.pairwise_cons.2 ⟨fun q hq => ?_, ih habsolute⟩
      exact (isPrefix_of_mem_ancestorsUpTo habsolute hq).2.trans ⟨[k], hk.symm⟩
    · exact List.pairwise_singleton _ _

/-- The components of an ancestor begin with those of any that comes after it. -/
theorem isPrefix_of_ancestors {i j : Nat} {a b : Path} (h : p.isAbsolute)
    (ha : p.ancestors[i]? = some a) (hb : p.ancestors[j]? = some b) (hij : i ≤ j) :
    b.components <+: a.components := by
  rcases Nat.lt_or_eq_of_le hij with hij | rfl
  · obtain ⟨hi, rfl⟩ := List.getElem?_eq_some_iff.1 ha
    obtain ⟨hj, rfl⟩ := List.getElem?_eq_some_iff.1 hb
    exact List.pairwise_iff_getElem.1 (pairwise_ancestorsUpTo h) i j hi hj hij
  · obtain rfl := Option.some.inj (ha.symm.trans hb)
    exact List.prefix_rfl

end Path

end StagingAudit
