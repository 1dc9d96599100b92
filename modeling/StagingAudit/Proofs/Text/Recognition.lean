import Mathlib.Data.List.Forall2
import Mathlib.Data.List.TakeWhile
import StagingAudit.Proofs.Text.Letter

/-!
# What recognisers take

A recogniser answers what is left of a text. The lemmas here say the same in terms of what it
*takes*: a text is split into the part that has the shape and the rest. For runs this includes
that nothing more could have been taken, and for searches that **no earlier place would have
done**.

Where a text is to be split, a character settles the place: a part that does not hold it ends
before its first occurrence.
-/

namespace StagingAudit

/-! ## Splitting a text

A text that is given in two parts is often split in another way as well, by a search or by a
grammar. Either the first part of one split starts that of the other (`append_split`), or something
is known to stand in one part and not in the other, which decides between the two. -/

/-- A character that the first part of a text does not hold stands in the second part. -/
theorem exists_append_of_not_mem {α : Type} {taken rest before after : List α} {c : α}
    (h : taken ++ rest = before ++ c :: after) (hc : c ∉ taken) :
    ∃ more, before = taken ++ more ∧ rest = more ++ c :: after := by
  rcases List.append_eq_append_iff.1 h with ⟨more, hbefore, hrest⟩ | ⟨more, htaken, hafter⟩
  · exact ⟨more, hbefore, hrest⟩
  · cases more with
    | nil => exact ⟨[], by simpa using htaken.symm, by simpa using hafter.symm⟩
    | cons d more =>
      obtain ⟨rfl, -⟩ := List.cons.inj hafter
      exact absurd (by simp [htaken]) hc

/-- Of two ways to split a text, the first part of one starts the first part of the other, or it is
longer than that. -/
theorem append_split {α : Type} {a x b y : List α} (h : a ++ x = b ++ y) :
    (∃ more, b = a ++ more ∧ x = more ++ y) ∨
      ∃ more, more ≠ [] ∧ a = b ++ more ∧ y = more ++ x := by
  rcases List.append_eq_append_iff.1 h with hlonger | ⟨more, rfl, rfl⟩
  · exact .inl hlonger
  · by_cases hmore : more = []
    · subst hmore
      exact .inl ⟨[], by simp, by simp⟩
    · exact .inr ⟨more, hmore, rfl, rfl⟩

/-- Two texts that end at their only `c` and start the same text are equal. -/
theorem eq_of_concat_append {α : Type} {a b x y : List α} {c : α} (ha : c ∉ a) (hb : c ∉ b)
    (h : a ++ c :: x = b ++ c :: y) : a = b ∧ x = y := by
  obtain ⟨more, rfl, hrest⟩ := exists_append_of_not_mem h ha
  cases more with
  | nil => exact ⟨by simp, by simpa using hrest⟩
  | cons d more =>
    obtain ⟨rfl, -⟩ := List.cons.inj hrest
    exact absurd (by simp) hb

/-- The last character of a text is that of its last part. -/
theorem exists_concat_of_append {α : Type} {front u v : List α} {c : α}
    (h : front ++ [c] = u ++ v) (hv : v ≠ []) : ∃ w, v = w ++ [c] ∧ front = u ++ w := by
  rcases List.eq_nil_or_concat' v with rfl | ⟨w, d, rfl⟩
  · exact absurd rfl hv
  · rw [← List.append_assoc] at h
    obtain ⟨hfront, hc⟩ := List.append_inj' h rfl
    exact ⟨w, by rw [hc], hfront⟩

/-- A text of one class does not hold a character of another. -/
theorem not_mem_of_forall {α : Type} {p : α → Bool} {cs : List α} {d : α}
    (h : ∀ c ∈ cs, p c = true) (hd : p d = false) : d ∉ cs := by
  intro hmem
  rw [h d hmem] at hd
  cases hd

/-- Dropping the characters of a class stops after those that were put in front. -/
theorem dropWhile_append_eq {α : Type} {p : α → Bool} {taken rest : List α}
    (htaken : ∀ c ∈ taken, p c = true) (hrest : ∀ c ∈ rest.head?, p c = false) :
    (taken ++ rest).dropWhile p = rest := by
  rw [List.dropWhile_append_of_pos htaken]
  cases rest with
  | nil => rfl
  | cons c rest => rw [List.dropWhile_cons_of_neg (by simp [hrest c rfl])]

/-- Taking the characters of a class stops after those that were put in front. -/
theorem takeWhile_append_eq {α : Type} {p : α → Bool} {taken rest : List α}
    (htaken : ∀ c ∈ taken, p c = true) (hrest : ∀ c ∈ rest.head?, p c = false) :
    (taken ++ rest).takeWhile p = taken := by
  rw [List.takeWhile_append_of_pos htaken]
  cases rest with
  | nil => simp
  | cons c rest => rw [List.takeWhile_cons_of_neg (by simp [hrest c rfl]), List.append_nil]

/-- Two runs of a class that start the same text are equal. -/
theorem eq_of_run_append {α : Type} {p : α → Bool} {a b x y : List α} (h : a ++ x = b ++ y)
    (ha : ∀ c ∈ a, p c = true) (hb : ∀ c ∈ b, p c = true) (hx : ∀ c ∈ x.head?, p c = false)
    (hy : ∀ c ∈ y.head?, p c = false) : a = b ∧ x = y := by
  have hrun : a = b := by
    rw [← takeWhile_append_eq ha hx, h, takeWhile_append_eq hb hy]
  subst hrun
  exact ⟨rfl, List.append_cancel_left h⟩

/-- After dropping the characters of a class the next one is not of the class. -/
theorem head?_dropWhile_eq_false {α : Type} {p : α → Bool} {cs : List α} :
    ∀ c ∈ (cs.dropWhile p).head?, p c = false := by
  intro c hc
  have hnot := List.head?_dropWhile_not p cs
  rw [Option.mem_def.1 hc] at hnot
  simpa using hnot

/-! ## Shapes -/

namespace Recogniser

/-- Two texts of the same length, letter for letter the same up to case. -/
abbrev SameLetters (pattern text : List Char) : Prop :=
  List.Forall₂ (fun p c => sameLetter p c = true) pattern text

/-- A text has its own letters. -/
theorem SameLetters.refl (cs : List Char) : SameLetters cs cs :=
  List.forall₂_same.2 fun c _ => beq_self_eq_true (foldCase c)

/-- Each letter of a text stands for one of the pattern. -/
theorem SameLetters.exists_of_mem {pattern text : List Char} (h : SameLetters pattern text)
    {c : Char} (hc : c ∈ text) : ∃ p ∈ pattern, sameLetter p c = true := by
  induction h with
  | nil => cases hc
  | @cons p d ps ds hhead _ ih =>
    rcases List.mem_cons.1 hc with rfl | hc
    · exact ⟨p, by simp, hhead⟩
    · obtain ⟨q, hq, hsame⟩ := ih hc
      exact ⟨q, List.mem_cons_of_mem p hq, hsame⟩

/-- A word whose lower case is an ASCII name, in any ASCII case, is lower-cased letter by letter. -/
theorem lowersTo_of_lowerCase {name word : List Char} (hname : ∀ c ∈ name, c.toNat < 0x80)
    (h : sameAsciiCase (lowerCase word) name = true) : List.Forall₂ LowersTo name word := by
  have hfrom : ∀ (word name before : List Char), (∀ c ∈ name, c.toNat < 0x80) →
      (lowerFrom before word).map Char.toLower = name.map Char.toLower →
      List.Forall₂ LowersTo name word := by
    intro word
    induction word with
    | nil =>
      intro name before _ hlower
      obtain rfl : name = [] := List.map_eq_nil_iff.1 hlower.symm
      exact .nil
    | cons c word ih =>
      intro name before hname hlower
      rw [lowerFrom] at hlower
      cases name with
      | nil =>
        have hnil := List.map_eq_nil_iff.1 hlower
        exact absurd (List.append_eq_nil_iff.1 hnil).1 (lowerChar_ne_nil before c word)
      | cons p name =>
        obtain ⟨hletter, htail⟩ := lowersTo_of_lowerChar hname hlower
        exact .cons hletter (ih name _ (fun q hq => hname q (List.mem_cons_of_mem p hq)) htail)
  rw [sameAsciiCase, beq_iff_eq] at h
  exact hfrom word name [] hname h

/-- So it has the letters of the name. -/
theorem sameLetters_of_lowerCase {name word : List Char} (hname : ∀ c ∈ name, c.toNat < 0x80)
    (h : sameAsciiCase (lowerCase word) name = true) : SameLetters name word :=
  (lowersTo_of_lowerCase hname h).imp fun _ _ => LowersTo.sameLetter

/-- And if there is no `k` in the name, the word itself is the name in some ASCII case. -/
theorem sameAsciiCase_of_lowerCase {name word : List Char} (hname : ∀ c ∈ name, c.toNat < 0x80)
    (hk : ∀ c ∈ name, c.toLower ≠ 'k') (h : sameAsciiCase (lowerCase word) name = true) :
    sameAsciiCase word name = true := by
  rw [sameAsciiCase, beq_iff_eq]
  have hletters := lowersTo_of_lowerCase hname h
  clear h hname
  induction hletters with
  | nil => rfl
  | @cons p c name word hletter _ ih =>
    have hhead : c.toLower = p.toLower := by
      obtain ⟨-, hlower | ⟨-, hpk⟩⟩ := hletter
      · exact hlower
      · exact absurd hpk (hk p (by simp))
    rw [List.map_cons, List.map_cons, hhead, ih fun d hd => hk d (List.mem_cons_of_mem p hd)]

/-- A folded text takes its letters in any case. -/
theorem folded_eq_some_iff {pattern cs rest : List Char} :
    folded pattern cs = some rest ↔ ∃ taken, SameLetters pattern taken ∧ cs = taken ++ rest := by
  induction pattern generalizing cs with
  | nil =>
    refine ⟨?_, ?_⟩
    · intro h
      exact ⟨[], .nil, by simpa [folded] using h⟩
    · rintro ⟨taken, hsame, rfl⟩
      cases hsame
      rfl
  | cons p ps ih =>
    cases cs with
    | nil =>
      refine ⟨?_, ?_⟩
      · intro h
        cases h
      · rintro ⟨taken, hsame, hcs⟩
        cases hsame
        cases hcs
    | cons c cs =>
      rw [folded]
      by_cases hpc : sameLetter p c = true
      · rw [if_pos hpc, ih]
        refine ⟨?_, ?_⟩
        · rintro ⟨taken, hsame, rfl⟩
          exact ⟨c :: taken, .cons hpc hsame, rfl⟩
        · rintro ⟨taken, hsame, hcs⟩
          cases hsame with
          | cons _ htail =>
            obtain ⟨rfl, rfl⟩ := List.cons.inj hcs
            exact ⟨_, htail, rfl⟩
      · rw [if_neg hpc]
        refine ⟨?_, ?_⟩
        · intro h
          cases h
        · rintro ⟨taken, hsame, hcs⟩
          cases hsame with
          | cons hhead _ =>
            obtain ⟨rfl, -⟩ := List.cons.inj hcs
            exact absurd hhead hpc

/-- A run takes characters of its class, at least one, until the class ends. -/
theorem run_eq_some_iff {p : Char → Bool} {cs rest : List Char} :
    run p cs = some rest ↔
      ∃ taken, taken ≠ [] ∧ (∀ c ∈ taken, p c = true) ∧ cs = taken ++ rest ∧
        ∀ c ∈ rest.head?, p c = false := by
  cases cs with
  | nil =>
    refine ⟨?_, ?_⟩
    · intro h
      cases h
    · rintro ⟨taken, hne, -, hcs, -⟩
      exact absurd (List.append_eq_nil_iff.1 hcs.symm).1 hne
  | cons c cs =>
    rw [run]
    refine ⟨?_, ?_⟩
    · intro h
      split at h
      · next hc =>
        cases h
        refine ⟨c :: cs.takeWhile p, by simp, ?_, ?_, head?_dropWhile_eq_false⟩
        · intro d hd
          rcases List.mem_cons.1 hd with rfl | hd
          · exact hc
          · exact List.mem_takeWhile_imp hd
        · rw [List.cons_append, List.takeWhile_append_dropWhile]
      · cases h
    · rintro ⟨taken, hne, hall, hcs, hrest⟩
      cases taken with
      | nil => exact absurd rfl hne
      | cons d taken =>
        rw [List.cons_append] at hcs
        obtain ⟨rfl, rfl⟩ := List.cons.inj hcs
        rw [if_pos (hall c (by simp)),
          dropWhile_append_eq (fun d hd => hall d (List.mem_cons_of_mem _ hd)) hrest]

end Recogniser

/-- In ASCII the same letters are the same up to ASCII case. -/
theorem sameAsciiCase_of_sameLetters {name word : List Char} (hname : ∀ c ∈ name, c.toNat < 0x80)
    (hword : ∀ c ∈ word, c.toNat < 0x80) (h : Recogniser.SameLetters name word) :
    sameAsciiCase word name = true := by
  rw [sameAsciiCase, beq_iff_eq]
  induction h with
  | nil => rfl
  | @cons p c ps cs hsame _ ih =>
    have hhead : p.toLower = c.toLower := by
      rwa [sameLetter, beq_iff_eq, foldCase, foldCase, if_pos (hname p (by simp)),
        if_pos (hword c (by simp))] at hsame
    rw [List.map_cons, List.map_cons, hhead, ih (fun d hd => hname d (List.mem_cons_of_mem p hd))
      (fun d hd => hword d (List.mem_cons_of_mem c hd))]

/-- Skipping white space stops at the first other character. -/
theorem skipWhite_append_eq {space rest : List Char} (hspace : ∀ c ∈ space, isWhite c = true)
    (hrest : ∀ c ∈ rest.head?, isWhite c = false) : skipWhite (space ++ rest) = rest :=
  dropWhile_append_eq hspace hrest

/-- What is left after white space stands behind white space. -/
theorem exists_append_skipWhite (cs : List Char) :
    ∃ space, (∀ c ∈ space, isWhite c = true) ∧ cs = space ++ skipWhite cs :=
  ⟨cs.takeWhile isWhite, fun _ hc => List.mem_takeWhile_imp hc,
    List.takeWhile_append_dropWhile.symm⟩

/-! ## Searches

A search asks at every place, with the character before the place and the text behind it. When a
text is taken in two parts, the character before the second part is the last one of the first part,
or the one that stood before the whole if the first part is empty. That is what `lastChar` keeps
track of, and with it a search over two parts goes on from one to the other. -/

/-- The character before a place: the last one of the text before it, or `prev` at the start. -/
def lastChar (prev : Option Char) (before : List Char) : Option Char := before.getLast?.or prev

@[simp]
theorem lastChar_nil (prev : Option Char) : lastChar prev [] = prev := rfl

@[simp]
theorem lastChar_cons (prev : Option Char) (c : Char) (cs : List Char) :
    lastChar prev (c :: cs) = lastChar (some c) cs := by
  rw [lastChar, lastChar, List.getLast?_cons]
  cases cs.getLast? <;> rfl

theorem lastChar_append (prev : Option Char) (a b : List Char) :
    lastChar prev (a ++ b) = lastChar (lastChar prev a) b := by
  rw [lastChar, lastChar, lastChar, List.getLast?_append, Option.or_assoc]

@[simp]
theorem lastChar_concat (prev : Option Char) (a : List Char) (c : Char) :
    lastChar prev (a ++ [c]) = some c := by
  rw [lastChar_append]
  rfl

/-- After a first character there is always one before a place, of the text so far. -/
theorem exists_lastChar (c : Char) (cs : List Char) :
    ∃ d ∈ c :: cs, lastChar (some c) cs = some d := by
  rcases List.eq_nil_or_concat' cs with rfl | ⟨init, d, rfl⟩
  · exact ⟨c, by simp, rfl⟩
  · exact ⟨d, by simp, by simp⟩

section Search

variable {α : Type} {r : Option Char → List Char → Option α} {prev : Option Char}

/-- A search that fails at every place of a first part goes on in the second part. -/
theorem scan?_append {a b : List Char}
    (h : ∀ u v, a = u ++ v → v ≠ [] → r (lastChar prev u) (v ++ b) = none) :
    scan? r prev (a ++ b) = (scan? r (lastChar prev a) b).map fun (x, y) => (a ++ x, y) := by
  induction a generalizing prev with
  | nil => simp
  | cons c a ih =>
    have hhead : r prev (c :: (a ++ b)) = none := h [] (c :: a) rfl (by simp)
    have htail : scan? r (some c) (a ++ b) =
        (scan? r (lastChar (some c) a) b).map fun (x, y) => (a ++ x, y) := by
      refine ih fun u v ha hv => ?_
      have hu := h (c :: u) v (by rw [ha, List.cons_append]) hv
      rwa [lastChar_cons] at hu
    rw [List.cons_append, scan?, hhead, htail, lastChar_cons, Option.map_map]
    rfl

/-- A search that succeeds at its first place. -/
theorem scan?_of_some {cs : List Char} {x : α} (h : r prev cs = some x) :
    scan? r prev cs = some ([], x) := by
  cases cs with
  | nil => rw [scan?, h]; rfl
  | cons c cs => rw [scan?, h]

/-- A search fails exactly when it fails at every place. -/
theorem scan?_eq_none_iff {cs : List Char} :
    scan? r prev cs = none ↔ ∀ before rest, cs = before ++ rest →
      r (lastChar prev before) rest = none := by
  induction cs generalizing prev with
  | nil =>
    rw [scan?, Option.map_eq_none_iff]
    refine ⟨?_, ?_⟩
    · intro h before rest hcs
      obtain ⟨rfl, rfl⟩ := List.append_eq_nil_iff.1 hcs.symm
      exact h
    · intro h
      exact h [] [] rfl
  | cons c cs ih =>
    refine ⟨?_, ?_⟩
    · intro h before rest hcs
      cases hr : r prev (c :: cs) with
      | some x =>
        rw [scan?_of_some hr] at h
        cases h
      | none =>
        rw [scan?, hr] at h
        cases before with
        | nil => rw [lastChar_nil, ← hr, hcs, List.nil_append]
        | cons b before =>
          obtain ⟨rfl, rfl⟩ := List.cons.inj hcs
          rw [lastChar_cons]
          exact ih.1 (Option.map_eq_none_iff.1 h) before rest rfl
    · intro h
      rw [scan?, show r prev (c :: cs) = none from h [] (c :: cs) rfl, Option.map_eq_none_iff, ih]
      intro before rest hcs
      have hcons := h (c :: before) rest (by rw [hcs, List.cons_append])
      rwa [lastChar_cons] at hcons

/-- A search finds the leftmost place: it succeeds there and fails at every place before it. -/
theorem scan?_eq_some_iff {cs before : List Char} {x : α} :
    scan? r prev cs = some (before, x) ↔
      ∃ rest, cs = before ++ rest ∧ r (lastChar prev before) rest = some x ∧
        ∀ u v, before = u ++ v → v ≠ [] → r (lastChar prev u) (v ++ rest) = none := by
  refine ⟨?_, ?_⟩
  · intro h
    induction cs generalizing prev before with
    | nil =>
      obtain ⟨y, hr, he⟩ := Option.map_eq_some_iff.1 h
      cases he
      refine ⟨[], rfl, hr, fun u v huv hv => ?_⟩
      exact absurd (List.append_eq_nil_iff.1 huv.symm).2 hv
    | cons c cs ih =>
      cases hr : r prev (c :: cs) with
      | some y =>
        rw [scan?_of_some hr] at h
        cases h
        refine ⟨c :: cs, rfl, hr, fun u v huv hv => ?_⟩
        exact absurd (List.append_eq_nil_iff.1 huv.symm).2 hv
      | none =>
        rw [scan?, hr] at h
        obtain ⟨⟨before', y⟩, hscan, he⟩ := Option.map_eq_some_iff.1 h
        cases he
        obtain ⟨rest, rfl, hfound, hfirst⟩ := ih hscan
        refine ⟨rest, rfl, by rwa [lastChar_cons], fun u v huv hv => ?_⟩
        cases u with
        | nil =>
          obtain rfl : c :: before' = v := huv
          exact hr
        | cons b u =>
          obtain ⟨rfl, rfl⟩ := List.cons.inj huv
          rw [lastChar_cons]
          exact hfirst u v rfl hv
  · rintro ⟨rest, rfl, hfound, hfirst⟩
    rw [scan?_append hfirst, scan?_of_some hfound]
    simp

/-- A search succeeds when it would succeed at some place. -/
theorem isSome_scan?_append {a b : List Char} (h : (r (lastChar prev a) b).isSome) :
    (scan? r prev (a ++ b)).isSome := by
  rw [Option.isSome_iff_ne_none] at h ⊢
  exact fun hnone => h (scan?_eq_none_iff.1 hnone a b rfl)

end Search

/-! ## Searches that look ahead only

Most shapes do not ask what stands before them. The lemmas above then hold without the character
before a place, and there is one more: characters that cannot start the shape may be passed over one
by one. -/

section Ahead

variable {r : Recogniser} {a b : List Char}

/-- A search that looks ahead only does not see what stands before the text. -/
theorem scan?_ahead (prev : Option Char) (cs : List Char) :
    scan? (fun _ rest => r rest) prev cs = find? r cs := by
  cases cs <;> rfl

/-- A search that fails at every place of a first part goes on in the second part. -/
theorem find?_append (h : ∀ u v, a = u ++ v → v ≠ [] → r (v ++ b) = none) :
    find? r (a ++ b) = (find? r b).map fun (x, y) => (a ++ x, y) := by
  rw [find?, scan?_append h, scan?_ahead]

/-- A search passes over characters that its shape does not start with. -/
theorem find?_append_of_head (h : ∀ c ∈ a, ∀ cs, r (c :: cs) = none) :
    find? r (a ++ b) = (find? r b).map fun (x, y) => (a ++ x, y) := by
  refine find?_append fun u v ha hv => ?_
  cases v with
  | nil => exact absurd rfl hv
  | cons c v => exact h c (by simp [ha]) _

/-- A search that succeeds at its first place. -/
theorem find?_of_some {cs rest : List Char} (h : r cs = some rest) : find? r cs = some ([], rest) :=
  scan?_of_some h

/-- A shape that stands somewhere occurs. -/
theorem occurs_append (h : (r b).isSome) : occurs r (a ++ b) = true :=
  isSome_scan?_append h

/-- A cut is made at the first occurrence: up to its end the pattern stands nowhere else. -/
theorem cutAt?_eq_some_iff {pattern cs before after : List Char} :
    cutAt? pattern cs = some (before, after) ↔
      cs = before ++ (pattern ++ after) ∧
        ∀ u v, before ++ pattern = u ++ (pattern ++ v) → v = [] := by
  rw [cutAt?, find?, scan?_eq_some_iff]
  refine ⟨?_, ?_⟩
  · rintro ⟨rest, rfl, hrest, hfirst⟩
    rw [Recogniser.literal_eq_some_iff] at hrest
    refine ⟨by rw [hrest], fun u v huv => ?_⟩
    rcases append_split huv with ⟨more, -, hpattern⟩ | ⟨more, hmore, hbefore, hpattern⟩
    · have hlen := congrArg List.length hpattern
      simp only [List.length_append] at hlen
      exact List.eq_nil_of_length_eq_zero (by omega)
    · -- the pattern would stand at an earlier place
      have hnone := hfirst u more hbefore hmore
      have hsome : Recogniser.literal pattern (more ++ rest) = some (v ++ after) := by
        rw [Recogniser.literal_eq_some_iff, hrest, ← List.append_assoc, ← hpattern,
          List.append_assoc]
      rw [hnone] at hsome
      cases hsome
  · rintro ⟨rfl, hfirst⟩
    refine ⟨pattern ++ after, rfl, Recogniser.literal_eq_some_iff.2 rfl, fun u v huv hv => ?_⟩
    cases hliteral : Recogniser.literal pattern (v ++ (pattern ++ after)) with
    | none => rfl
    | some rest =>
      exfalso
      rw [Recogniser.literal_eq_some_iff, ← List.append_assoc] at hliteral
      have hpos := List.length_pos_iff.2 hv
      rcases append_split hliteral with ⟨more, hpattern, -⟩ | ⟨more, hmore, hpattern, -⟩
      · have hlen := congrArg List.length hpattern
        simp only [List.length_append] at hlen
        omega
      · exact hmore (hfirst u more (by rw [huv, List.append_assoc, hpattern]))

end Ahead

end StagingAudit
