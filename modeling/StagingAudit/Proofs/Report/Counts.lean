import Mathlib.Data.List.Induction
import Mathlib.Data.List.Sort
import StagingAudit.Report.Basic

/-!
# Counts by code

Violations are counted one after the other: a code that has been counted before goes up by one, a
new one is put at the end with a count of one. So the codes stand in the order in which they first
occur (`foldl_addCode`), and a sort that keeps the order of equals (`pairwise_mergeSort_stable`)
then brings the most frequent ones to the front. **The counts are the one list** that has every
code once with its number, the greater numbers first and equal ones by first occurrence
(`countsByCode_exact`).
-/

namespace StagingAudit

/-! ## Without repetitions -/

section EraseDups

variable {α : Type} [DecidableEq α]

/-- One more element is new, or it is there already. -/
theorem eraseDups_concat (xs : List α) (x : α) :
    (xs ++ [x]).eraseDups = if x ∈ xs then xs.eraseDups else xs.eraseDups ++ [x] := by
  rw [List.eraseDups_append]
  by_cases hx : x ∈ xs
  · simp [List.removeAll, hx]
  · simp [List.removeAll, hx, List.eraseDups_cons]

/-- Elements without their repetitions stand in the order in which they first occur. -/
theorem pairwise_idxOf_eraseDups (xs : List α) :
    xs.eraseDups.Pairwise fun x y => xs.idxOf x < xs.idxOf y := by
  induction xs using List.reverseRecOn with
  | nil => exact .nil
  | append_singleton xs x ih =>
    have hold : xs.eraseDups.Pairwise fun y z => (xs ++ [x]).idxOf y < (xs ++ [x]).idxOf z := by
      refine ih.imp_of_mem fun hy hz hlt => ?_
      rwa [List.idxOf_append_of_mem (List.mem_eraseDups.1 hy),
        List.idxOf_append_of_mem (List.mem_eraseDups.1 hz)]
    rw [eraseDups_concat]
    split
    · exact hold
    · next hx =>
      refine List.pairwise_append.2 ⟨hold, List.pairwise_singleton _ _, fun y hy z hz => ?_⟩
      obtain rfl := List.mem_singleton.1 hz
      have hmem := List.mem_eraseDups.1 hy
      rw [List.idxOf_append_of_mem hmem, List.idxOf_append_of_notMem hx]
      exact Nat.lt_add_right _ (List.idxOf_lt_length_of_mem hmem)

theorem nodup_eraseDups (xs : List α) : xs.eraseDups.Nodup :=
  (pairwise_idxOf_eraseDups xs).imp fun hlt heq => by
    rw [heq] at hlt
    exact Nat.lt_irrefl _ hlt

end EraseDups

/-! ## One code after the other -/

/-- The counts with one more code. -/
def addCode (counts : List (String × Nat)) (code : String) : List (String × Nat) :=
  match counts with
  | [] => [(code, 1)]
  | (c, n) :: counts => if c = code then (c, n + 1) :: counts else (c, n) :: addCode counts code

/-- Another code adds one to its own number and to no other, if every code is counted once. -/
theorem addCode_map {codes : List String} (hcodes : codes.Nodup) {number : String → Nat}
    {code : String} (hnew : code ∉ codes → number code = 0) :
    addCode (codes.map fun c => (c, number c)) code =
      (if code ∈ codes then codes else codes ++ [code]).map fun c =>
        (c, number c + if c = code then 1 else 0) := by
  induction codes with
  | nil => simp [addCode, hnew List.not_mem_nil]
  | cons c codes ih =>
    obtain ⟨hc, hcodes⟩ := List.nodup_cons.1 hcodes
    rw [List.map_cons, addCode]
    by_cases heq : c = code
    · subst heq
      have hsame : (codes.map fun d => (d, number d + if d = c then 1 else 0)) =
          codes.map fun d => (d, number d) := by
        refine List.map_congr_left fun d hd => ?_
        rw [if_neg (by rintro rfl; exact hc hd), Nat.add_zero]
      simp [hsame]
    · have htail := ih hcodes fun hnot => hnew (by simp [Ne.symm heq, hnot])
      rw [if_neg heq, htail]
      by_cases hmem : code ∈ codes
      · simp [hmem, heq]
      · simp [hmem, heq, Ne.symm heq]

/-- **Counting one code after the other** gives every code its number, in the order in which the
codes first occur. -/
theorem foldl_addCode (codes : List String) :
    codes.foldl addCode [] = codes.eraseDups.map fun c => (c, codes.count c) := by
  induction codes using List.reverseRecOn with
  | nil => rfl
  | append_singleton codes code ih =>
    have hnew : code ∉ codes.eraseDups → codes.count code = 0 := fun hnot =>
      List.count_eq_zero.2 fun hmem => hnot (List.mem_eraseDups.2 hmem)
    rw [List.foldl_append, ih, List.foldl_cons, List.foldl_nil,
      addCode_map (nodup_eraseDups codes) hnew, eraseDups_concat]
    simp only [List.mem_eraseDups]
    refine List.map_congr_left fun c _ => ?_
    rw [List.count_append, List.count_singleton]
    by_cases heq : c = code
    · simp [heq]
    · simp [heq, Ne.symm heq]

/-- A code that comes again is counted where it first occurred. -/
example :
    ["LOADED_AT", "CTE_ORDER", "CTE_ORDER", "SURROGATE_KEY"].foldl addCode [] =
      [("LOADED_AT", 1), ("CTE_ORDER", 2), ("SURROGATE_KEY", 1)] := by decide

/-! ## A sort that keeps the order of equals

A merge sort keeps sorted parts of a list in their order, which the library says for parts that
stand anywhere in the list. Elements that are equal in the order are such a part. So of two equal
elements the one that stood first comes first, although the order itself does not tell them
apart. -/

/-- Sorting a list leaves equal elements in the order in which they stood. -/
theorem pairwise_mergeSort_stable {α : Type} {le : α → α → Bool}
    (trans : ∀ a b c, le a b = true → le b c = true → le a c = true)
    (total : ∀ a b, (le a b || le b a) = true) {r : α → α → Prop} {l : List α}
    (h : l.Pairwise r) :
    (l.mergeSort le).Pairwise fun a b => le a b = true ∧ (le b a = true → r a b) := by
  refine (List.pairwise_mergeSort trans total l).and (List.pairwise_iff_forall_sublist.2 ?_)
  intro a b hab hba
  have hle : le a b = true :=
    List.pairwise_iff_forall_sublist.1 (List.pairwise_mergeSort trans total l) hab
  -- the elements equal to `a` are sorted already, and the sort has the same of them
  have hrefl : le a a = true := trans a b a hle hba
  have hequal : (l.filter fun x => le x a && le a x).Pairwise fun x y => le x y = true := by
    refine List.pairwise_of_forall_mem_list fun x hx y hy => ?_
    simp only [List.mem_filter, Bool.and_eq_true] at hx hy
    exact trans x a y hx.2.1 hy.2.2
  have hsub := (List.sublist_mergeSort trans total hequal List.filter_sublist).filter
    fun x => le x a && le a x
  rw [List.filter_filter] at hsub
  simp only [Bool.and_self] at hsub
  have hkept := hsub.eq_of_length ((List.mergeSort_perm l le).filter _).length_eq.symm
  have hpair := hab.filter fun x => le x a && le a x
  rw [← hkept] at hpair
  refine List.pairwise_iff_forall_sublist.1 h ?_
  have hboth : [a, b].filter (fun x => le x a && le a x) = [a, b] := by
    simp [hrefl, hle, hba]
  rw [← hboth]
  exact hpair.trans List.filter_sublist

/-! ## The counts of a run -/

/-- The codes of a run are those of its violations, in order. -/
theorem allCodes_eq_map (reports : List Report) :
    allCodes reports = (reports.flatMap (·.violations)).map (·.code) :=
  List.map_flatMap.symm

/-- Every code of a run, once, with the number of violations that carry it: greater numbers come
first, and of equal numbers the one whose code occurs first. -/
structure ExactCounts (reports : List Report) (counts : List (String × Nat)) : Prop where
  /-- no code is listed twice -/
  nodup : (counts.map (·.1)).Nodup
  /-- the codes that occur are listed and no others -/
  occurs : ∀ code, code ∈ counts.map (·.1) ↔ ∃ r ∈ reports, ∃ v ∈ r.violations, v.code = code
  /-- each with its number -/
  number : ∀ p ∈ counts, p.2 = (reports.flatMap (·.violations)).countP fun v => v.code = p.1
  /-- greater numbers come first -/
  descending : counts.Pairwise fun p q => q.2 ≤ p.2
  /-- equal numbers come in the order of the first occurrences -/
  ties : counts.Pairwise fun p q => p.2 = q.2 →
    (allCodes reports).idxOf p.1 < (allCodes reports).idxOf q.1

/-- Whether a pair is listed before another one. -/
def ListedBefore (reports : List Report) (p q : String × Nat) : Prop :=
  q.2 < p.2 ∨ (p.2 = q.2 ∧ (allCodes reports).idxOf p.1 < (allCodes reports).idxOf q.1)

namespace ExactCounts

variable {reports : List Report} {counts counts' : List (String × Nat)}

/-- A pair is listed when its code occurs and its number is the right one. -/
theorem mem_iff (h : ExactCounts reports counts) {p : String × Nat} :
    p ∈ counts ↔ (∃ r ∈ reports, ∃ v ∈ r.violations, v.code = p.1) ∧
      p.2 = (reports.flatMap (·.violations)).countP fun v => v.code = p.1 := by
  constructor
  · intro hp
    exact ⟨(h.occurs p.1).1 (List.mem_map_of_mem hp), h.number p hp⟩
  · rintro ⟨hoccurs, hnumber⟩
    obtain ⟨q, hq, hcode⟩ := List.mem_map.1 ((h.occurs p.1).2 hoccurs)
    have hsame : q = p := Prod.ext hcode (by rw [h.number q hq, hnumber, hcode])
    rwa [← hsame]

/-- There is one such list only. -/
theorem unique (h : ExactCounts reports counts) (h' : ExactCounts reports counts') :
    counts = counts' := by
  have hsorted : ∀ {counts}, ExactCounts reports counts →
      counts.Pairwise (ListedBefore reports) := by
    intro counts h
    refine (h.descending.and h.ties).imp fun {p q} hpq => ?_
    rcases Nat.lt_or_eq_of_le hpq.1 with hlt | heq
    · exact .inl hlt
    · exact .inr ⟨heq.symm, hpq.2 heq.symm⟩
  -- the order is strict, so it is enough to compare the members
  have : Std.Irrefl (ListedBefore reports) := ⟨fun p hp => by unfold ListedBefore at hp; omega⟩
  have : Std.Antisymm (ListedBefore reports) :=
    ⟨fun p q hp hq => by unfold ListedBefore at hp hq; omega⟩
  exact (hsorted h).eq_of_mem_iff (hsorted h') fun p => by rw [h.mem_iff, h'.mem_iff]

end ExactCounts

/-- The counts of a run are exact. -/
theorem exactCounts_countsByCode (reports : List Report) :
    ExactCounts reports (countsByCode reports) := by
  have hperm := List.mergeSort_perm
    ((allCodes reports).eraseDups.map fun c => (c, (allCodes reports).count c))
    fun a b => b.2 ≤ a.2
  have hcodes : ((countsByCode reports).map (·.1)).Perm (allCodes reports).eraseDups := by
    have hmap := hperm.map (·.1)
    rwa [List.map_map, Function.comp_def, List.map_id'] at hmap
  have hsorted : (countsByCode reports).Pairwise fun p q =>
      decide (q.2 ≤ p.2) = true ∧ (decide (p.2 ≤ q.2) = true →
        (allCodes reports).idxOf p.1 < (allCodes reports).idxOf q.1) := by
    refine pairwise_mergeSort_stable ?_ ?_
      (List.pairwise_map.2 (pairwise_idxOf_eraseDups (allCodes reports)))
    · intro a b c hab hbc
      simp only [decide_eq_true_eq] at hab hbc ⊢
      omega
    · intro a b
      simp only [Bool.or_eq_true, decide_eq_true_eq]
      omega
  refine ⟨hcodes.nodup_iff.2 (nodup_eraseDups _), fun code => ?_, fun p hp => ?_, ?_, ?_⟩
  · rw [hcodes.mem_iff, List.mem_eraseDups, allCodes_eq_map, List.mem_map]
    simp only [List.mem_flatMap]
    constructor
    · rintro ⟨v, ⟨r, hr, hv⟩, hcode⟩
      exact ⟨r, hr, v, hv, hcode⟩
    · rintro ⟨r, hr, v, hv, hcode⟩
      exact ⟨v, ⟨r, hr, hv⟩, hcode⟩
  · obtain ⟨c, -, rfl⟩ := List.mem_map.1 (hperm.mem_iff.1 hp)
    rw [allCodes_eq_map, List.count_eq_countP, List.countP_map]
    rfl
  · exact hsorted.imp fun hpq => of_decide_eq_true hpq.1
  · exact hsorted.imp fun hpq heq => hpq.2 (decide_eq_true heq.le)

/-- **The counts by code are exact**, and nothing else is: they are what counting one violation
after the other and sorting by number comes to, and the only list that has every code of the run
once with its number, the greater numbers first and equal ones by first occurrence. -/
theorem countsByCode_exact (reports : List Report) :
    countsByCode reports =
      ((allCodes reports).foldl addCode []).mergeSort (fun a b => b.2 ≤ a.2) ∧
    ∀ counts, ExactCounts reports counts ↔ counts = countsByCode reports := by
  refine ⟨by rw [foldl_addCode, countsByCode], fun counts => ⟨fun h => ?_, ?_⟩⟩
  · exact h.unique (exactCounts_countsByCode reports)
  · rintro rfl
    exact exactCounts_countsByCode reports

end StagingAudit
