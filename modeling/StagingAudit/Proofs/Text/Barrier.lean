import StagingAudit.Proofs.Text.Recognition

/-!
# Characters that no shape goes past

Most shapes of the project are made of letters, white space and a few signs. A character that is
none of them is where such a shape ends at the latest: **what a recogniser makes of the text before
the character does not depend on what follows it** (`HaltsAt`). This goes for recognisers that are
put together from such.

So a search can be taken up to the character and from it on (`Halts.scan?_append`), also if the
shape starts with that character, as long as it does not go past another one.
-/

namespace StagingAudit

/-! ## Recognisers -/

/-- A recogniser that sees no further than a certain character. -/
def Recogniser.HaltsAt (r : Recogniser) (c : Char) : Prop :=
  ∀ v w, r (v ++ c :: w) = (r v).map (· ++ c :: w)

namespace Recogniser

variable {c : Char}

theorem haltsAt_literal {text : List Char} (h : c ∉ text) : (literal text).HaltsAt c := by
  induction text with
  | nil =>
    intro v w
    rfl
  | cons p text ih =>
    rw [List.mem_cons, not_or] at h
    intro v w
    cases v with
    | nil => exact if_neg (Ne.symm h.1)
    | cons d v =>
      rw [List.cons_append, literal, literal]
      split
      · exact ih h.2 v w
      · rfl

theorem haltsAt_folded {pattern : List Char} (h : ∀ p ∈ pattern, sameLetter p c = false) :
    (folded pattern).HaltsAt c := by
  induction pattern with
  | nil =>
    intro v w
    rfl
  | cons p pattern ih =>
    intro v w
    cases v with
    | nil => exact if_neg (by rw [h p (by simp)]; exact Bool.false_ne_true)
    | cons d v =>
      rw [List.cons_append, folded, folded]
      split
      · exact ih (fun q hq => h q (List.mem_cons_of_mem p hq)) v w
      · rfl

/-- Dropping the characters of a class goes no further than a character of another. -/
theorem dropWhile_append_cons {p : Char → Bool} (hc : p c = false) (v w : List Char) :
    (v ++ c :: w).dropWhile p = v.dropWhile p ++ c :: w := by
  rw [List.dropWhile_append]
  split
  · next hnil =>
    rw [List.isEmpty_iff.1 hnil, List.dropWhile_cons_of_neg (by simp [hc])]
    rfl
  · rfl

theorem haltsAt_run {p : Char → Bool} (hc : p c = false) : (run p).HaltsAt c := by
  intro v w
  cases v with
  | nil => exact if_neg (by rw [hc]; exact Bool.false_ne_true)
  | cons d v =>
    rw [List.cons_append, run, run]
    split
    · exact congrArg some (dropWhile_append_cons hc v w)
    · rfl

/-- Recognisers that halt can be put one after the other. -/
theorem HaltsAt.bind {r r' : Recogniser} (h : r.HaltsAt c) (h' : r'.HaltsAt c) :
    HaltsAt (fun cs => (r cs).bind r') c := by
  intro v w
  show (r (v ++ c :: w)).bind r' = ((r v).bind r').map (· ++ c :: w)
  rw [h, Option.bind_map, Option.map_bind]
  exact congrArg _ (funext fun cs => h' cs w)

/-- White space between them does not matter. -/
theorem HaltsAt.behindWhite {r : Recogniser} (h : r.HaltsAt c) (hc : isWhite c = false) :
    HaltsAt (fun cs => r (skipWhite cs)) c := by
  intro v w
  show r (skipWhite (v ++ c :: w)) = (r (skipWhite v)).map (· ++ c :: w)
  rw [skipWhite, dropWhile_append_cons hc, h]
  rfl

end Recogniser

/-! ## Searches

A search asks at every place up to the character, also at those from which the shape would have to
go past it. There it gets the answer that it gets when the text ends before the character, since
that is all that the recogniser sees. So everything before the character is settled by the first
part, and the character is the first place of a second search. -/

/-- A recogniser to search with, that sees no further than a certain character. It may take that
character in the first place, but it has to take something. -/
structure Halts (c : Char) (r : Option Char → Recogniser) : Prop where
  /-- nothing is not enough -/
  nil : ∀ prev, r prev [] = none
  /-- behind the first place it does not see past the character -/
  append : ∀ prev v w, v ≠ [] → r prev (v ++ c :: w) = (r prev v).map (· ++ c :: w)

/-- A recogniser that looks ahead only. -/
theorem Recogniser.HaltsAt.halts {r : Recogniser} {c : Char} (h : r.HaltsAt c) (hnil : r [] = none) :
    Halts c fun _ => r :=
  ⟨fun _ => hnil, fun _ v w _ => h v w⟩

namespace Halts

variable {c : Char} {r : Option Char → Recogniser} {prev : Option Char} {a b : List Char}

/-- **A search is taken up to the character first**, as if the text ended there, and goes on from it
when nothing has been found. -/
theorem scan?_append (h : Halts c r) :
    scan? r prev (a ++ c :: b) =
      ((scan? r prev a).map fun (x, y) => (x, y ++ c :: b)).or
        ((scan? r (lastChar prev a) (c :: b)).map fun (x, y) => (a ++ x, y)) := by
  induction a generalizing prev with
  | nil =>
    rw [scan?.eq_1, h.nil]
    simp
  | cons d a ih =>
    rw [List.cons_append, scan?, scan?, ← List.cons_append, h.append prev _ b (by simp)]
    cases r prev (d :: a) with
    | some y => rfl
    | none =>
      show Option.map _ (scan? r (some d) (a ++ c :: b)) = _
      rw [ih, Option.map_or, Option.map_map, Option.map_map, Option.map_map, lastChar_cons]
      rfl

/-- Where nothing is found up to the character, the search goes on from it. -/
theorem scan?_append_of_none (h : Halts c r) (ha : scan? r prev a = none) :
    scan? r prev (a ++ c :: b) =
      (scan? r (lastChar prev a) (c :: b)).map fun (x, y) => (a ++ x, y) := by
  rw [h.scan?_append, ha]
  rfl

end Halts

/-- A search that looks ahead only and finds nothing up to the character goes on from it. -/
theorem find?_append_of_none {c : Char} {r : Recogniser} {a b : List Char} (h : Halts c fun _ => r)
    (ha : find? r a = none) :
    find? r (a ++ c :: b) = (find? r (c :: b)).map fun (x, y) => (a ++ x, y) := by
  rw [find?, h.scan?_append_of_none ha, scan?_ahead]

end StagingAudit
