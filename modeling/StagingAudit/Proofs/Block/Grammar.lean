import StagingAudit.Proofs.Block.Introduction

/-!
# The grammar of blocks

Two descriptions of the blocks of a text beside the search that is used. `IntroducedAt` is the
grammar: where a name stands and what stands around it. `sweep` is a search that consumes what it
matches: it takes the leftmost separator and introduction, goes on behind the parenthesis, and
never looks back.

All three agree. **The blocks of a text are exactly the introductions of the grammar whose word is
not reserved, in order and each once** (`findBlocks_eq_grammar`); that the keyword before the first
block is blanked, and that separators and dropped words are consumed, changes nothing.
-/

namespace StagingAudit

/-- The grammar of introductions: at a byte offset of the text stands a maximal run of word
characters, at the start or behind white space or a comma, and behind it white space, `as` in any
case, optional white space and a parenthesis. -/
def IntroducedAt (text : List Char) (offset : Nat) (word : List Char) : Prop :=
  ∃ before gap kw space after,
    text = before ++ (word ++ (gap ++ (kw ++ (space ++ '(' :: after)))) ∧
    byteLength before = offset ∧
    word ≠ [] ∧ (∀ c ∈ word, isWord c = true) ∧
    isWordAt before.getLast? = false ∧ isWordAt gap.head? = false ∧
    (∀ c, before.getLast? = some c → isWhite c = true ∨ c = ',') ∧
    gap ≠ [] ∧ (∀ c ∈ gap, isWhite c = true) ∧
    Recogniser.SameLetters ['a', 's'] kw ∧
    ∀ c ∈ space, isWhite c = true

/-- The grammar is what the search looks for. -/
theorem introducedAt_iff {text word : List Char} {offset : Nat} :
    IntroducedAt text offset word ↔
      ∃ before rest, text = before ++ rest ∧ offset = byteLength before ∧
        mayStart before.getLast? = true ∧ NameHere rest word := by
  refine ⟨?_, ?_⟩
  · rintro ⟨before, gap, kw, space, after, rfl, rfl, hne, hword, -, -, hsep, hgap, hgapWhite, hkw,
      hspace⟩
    refine ⟨before, _, rfl, rfl, ?_, ⟨hne, hword⟩, _, after, .mk hgap hgapWhite hkw hspace, ?_⟩
    · cases hlast : before.getLast? with
      | none => rfl
      | some c => simpa [opensName] using hsep c hlast
    · simp
  · rintro ⟨before, rest, rfl, rfl, hmay, hname, _, after,
      @⟨gap, kw, space, hgap, hgapWhite, hkw, hspace⟩, rfl⟩
    refine ⟨before, gap, kw, space, after, by simp, rfl, hname.ne_nil, hname.isWord, ?_, ?_, ?_,
      hgap, hgapWhite, hkw, hspace⟩
    · exact isWordAt_of_mayStart hmay
    · cases gap with
      | nil => exact absurd rfl hgap
      | cons c gap => exact isWord_of_isWhite (hgapWhite c (by simp))
    · intro c hlast
      rw [hlast] at hmay
      simpa [opensName] using hmay

/-- The introductions of a text are those of the grammar. -/
theorem mem_introductions_iff {text : List Char} {i : Introduction} :
    i ∈ introductions text ↔ IntroducedAt text i.offset i.word := by
  rw [introductions, ← mayStart_none, mem_introductionsFrom_iff, introducedAt_iff]
  simp only [Nat.zero_add, lastChar, Option.or_none]

/-! ## A search that consumes what it matches

Going on behind a match could cost an introduction whose separator has been taken as a part of the
match. It costs none: a match ends with a parenthesis, behind which no name may start, so the
separator of the next introduction is still ahead. On the other hand the start of a line will do
without a separator, which gives nothing new, since the line break before it is one. -/

/-- A name and its opening at the start of a text, as the name and the text behind the opening. -/
def nameAt? (cs : List Char) : Option (List Char × List Char) := do
  let tail ← Recogniser.word cs
  let rest ← openBody tail
  return (cs.takeWhile isWord, rest)

/-- A separator and an introduction behind it, as the separator, the name and the text behind the
opening. -/
def behindSeparator? : List Char → Option (List Char × List Char × List Char)
  | c :: cs => if opensName c then (nameAt? cs).map fun (word, rest) => ([c], word, rest) else none
  | [] => none

/-- A match at a place: at the start of a line an introduction needs no separator. -/
def separated? (prev : Option Char) (cs : List Char) :
    Option (List Char × List Char × List Char) :=
  if prev = none ∨ prev = some '\n' then
    ((nameAt? cs).map fun (word, rest) => ([], word, rest)).or (behindSeparator? cs)
  else behindSeparator? cs

theorem nameAt?_eq_some_iff {cs word rest : List Char} :
    nameAt? cs = some (word, rest) ↔
      IsName word ∧ ∃ taken, OpensBody taken ∧ cs = word ++ (taken ++ rest) := by
  simp only [nameAt?, Option.bind_eq_bind, Option.bind_eq_some_iff]
  refine ⟨?_, ?_⟩
  · rintro ⟨tail, hword, rest', hopen, hpure⟩
    cases hpure
    obtain ⟨word, hne, hall, rfl, hhead⟩ := Recogniser.run_eq_some_iff.1 hword
    obtain ⟨taken, hopens, rfl⟩ := openBody_eq_some_iff.1 hopen
    rw [takeWhile_append_eq hall hhead]
    exact ⟨⟨hne, hall⟩, taken, hopens, rfl⟩
  · rintro ⟨⟨hne, hall⟩, taken, hopens, rfl⟩
    have hhead := hopens.isWord_head rest
    refine ⟨taken ++ rest, Recogniser.run_eq_some_iff.2 ⟨word, hne, hall, rfl, hhead⟩, rest,
      openBody_eq_some_iff.2 ⟨taken, hopens, rfl⟩, ?_⟩
    rw [takeWhile_append_eq hall hhead]
    rfl

/-- What a match behind a separator looks like. -/
theorem exists_of_behindSeparator? {cs sep word rest : List Char}
    (h : behindSeparator? cs = some (sep, word, rest)) :
    ∃ c taken, sep = [c] ∧ opensName c = true ∧ IsName word ∧ OpensBody taken ∧
      cs = c :: (word ++ (taken ++ rest)) := by
  cases cs with
  | nil => cases h
  | cons c cs =>
    rw [behindSeparator?] at h
    split at h
    · next hc =>
      obtain ⟨⟨word', rest'⟩, hname, he⟩ := Option.map_eq_some_iff.1 h
      cases he
      obtain ⟨hword, taken, hopens, rfl⟩ := nameAt?_eq_some_iff.1 hname
      exact ⟨c, taken, rfl, hc, hword, hopens, rfl⟩
    · cases h

/-- What a match looks like: a name may start behind its separator, and the separator is no part
of a word. -/
theorem exists_of_separated? {prev : Option Char} {cs sep word rest : List Char}
    (h : separated? prev cs = some (sep, word, rest)) :
    IsName word ∧ (∃ taken, OpensBody taken ∧ cs = sep ++ (word ++ (taken ++ rest))) ∧
      mayStart (lastChar prev sep) = true ∧ ∀ c ∈ sep, isWord c = false := by
  have hbehind : behindSeparator? cs = some (sep, word, rest) →
      IsName word ∧ (∃ taken, OpensBody taken ∧ cs = sep ++ (word ++ (taken ++ rest))) ∧
        mayStart (lastChar prev sep) = true ∧ ∀ c ∈ sep, isWord c = false := by
    intro hsep
    obtain ⟨c, taken, rfl, hc, hword, hopens, rfl⟩ := exists_of_behindSeparator? hsep
    refine ⟨hword, ⟨taken, hopens, rfl⟩, hc, fun d hd => ?_⟩
    obtain rfl := List.mem_singleton.1 hd
    exact isWord_of_opensName hc
  unfold separated? at h
  split at h
  · next hprev =>
    rcases Option.or_eq_some_iff.1 h with hline | ⟨-, hsep⟩
    · obtain ⟨⟨word', rest'⟩, hname, he⟩ := Option.map_eq_some_iff.1 hline
      cases he
      obtain ⟨hword, taken, hopens, rfl⟩ := nameAt?_eq_some_iff.1 hname
      refine ⟨hword, ⟨taken, hopens, rfl⟩, ?_, by simp⟩
      rcases hprev with rfl | rfl <;> decide
    · exact hbehind hsep
  · exact hbehind h

/-- A name that may start at a place is matched there or at its separator. -/
theorem exists_separated?_ne_none {prev : Option Char} {before rest word : List Char}
    (hprev : prev = none ∨ mayStart prev = false)
    (hmay : mayStart (lastChar prev before) = true) (h : NameHere rest word) :
    ∃ u v, before = u ++ v ∧ separated? (lastChar prev u) (v ++ rest) ≠ none := by
  obtain ⟨hword, taken, after, hopens, heq⟩ := h
  have hname := nameAt?_eq_some_iff.2 ⟨hword, taken, hopens, heq⟩
  rcases List.eq_nil_or_concat' before with rfl | ⟨u, c, rfl⟩
  · refine ⟨[], [], rfl, ?_⟩
    rcases hprev with rfl | hprev
    · simp [separated?, hname]
    · rw [lastChar_nil, hprev] at hmay
      cases hmay
  · rw [lastChar_concat, mayStart_some] at hmay
    refine ⟨u, [c], rfl, ?_⟩
    have hbehind : behindSeparator? (c :: rest) = some ([c], word, after) := by
      simp [behindSeparator?, hmay, hname]
    rw [List.singleton_append, separated?]
    split
    · simp [hbehind]
    · simp [hbehind]

/-- The introductions that a search finds which takes the leftmost match and goes on behind it. -/
def sweepFrom (prev : Option Char) (offset : Nat) (cs : List Char) : List Introduction :=
  match _h : scan? separated? prev cs with
  | none => []
  | some (before, sep, word, rest) =>
    ⟨offset + byteLength (before ++ sep), word⟩ ::
      sweepFrom (some '(') (offset + (byteLength cs - byteLength rest)) rest
termination_by cs.length
decreasing_by
  obtain ⟨tail, rfl, hfound, -⟩ := scan?_eq_some_iff.1 _h
  obtain ⟨hword, ⟨taken, -, rfl⟩, -, -⟩ := exists_of_separated? hfound
  have := List.length_pos_iff.2 hword.ne_nil
  simp only [List.length_append]
  omega

/-- The introductions that such a search finds in a text. -/
def sweep (text : List Char) : List Introduction := sweepFrom none 0 text

theorem sweepFrom_of_none {prev : Option Char} {cs : List Char} (offset : Nat)
    (h : scan? separated? prev cs = none) : sweepFrom prev offset cs = [] := by
  rw [sweepFrom]
  split
  · rfl
  · next h' =>
    rw [h] at h'
    cases h'

theorem sweepFrom_of_some {prev : Option Char} {cs before sep word rest : List Char} (offset : Nat)
    (h : scan? separated? prev cs = some (before, sep, word, rest)) :
    sweepFrom prev offset cs =
      ⟨offset + byteLength (before ++ sep), word⟩ ::
        sweepFrom (some '(') (offset + (byteLength cs - byteLength rest)) rest := by
  rw [sweepFrom]
  split
  · next h' =>
    rw [h] at h'
    cases h'
  · next h' =>
    rw [h] at h'
    cases h'
    rfl

/-- A search that consumes what it matches misses nothing and finds nothing else. -/
theorem sweepFrom_eq {prev : Option Char} (offset : Nat) (cs : List Char)
    (hprev : prev = none ∨ mayStart prev = false) :
    sweepFrom prev offset cs = introductionsFrom (mayStart prev) offset cs := by
  -- on the length: behind a match the sweep is at a parenthesis, where no name may start
  induction hlen : cs.length using Nat.strong_induction_on generalizing prev offset cs with
  | _ n ih =>
    subst hlen
    cases hscan : scan? separated? prev cs with
    | none =>
      have hskip := @introductionsFrom_append prev offset cs [] fun u v huv _ hmay word hname => by
        rw [List.append_nil] at hname
        obtain ⟨u', v', rfl, hne⟩ := exists_separated?_ne_none hprev hmay hname
        exact hne (scan?_eq_none_iff.1 hscan u' (v' ++ v) (by rw [huv, List.append_assoc]))
      rw [List.append_nil] at hskip
      rw [sweepFrom_of_none offset hscan, hskip]
      rfl
    | some found =>
      obtain ⟨before, sep, word, rest⟩ := found
      obtain ⟨tail, rfl, hfound, hfirst⟩ := scan?_eq_some_iff.1 hscan
      obtain ⟨hword, ⟨taken, hopens, rfl⟩, hmay, hsep⟩ := exists_of_separated? hfound
      have hlater : sweepFrom (some '(') (offset + (byteLength (before ++ (sep ++ (word ++
          (taken ++ rest)))) - byteLength rest)) rest = introductionsFrom false _ rest :=
        ih rest.length (by have := List.length_pos_iff.2 hword.ne_nil; simp; omega) _ rest
          (.inr rfl) rfl
      have hskip := @introductionsFrom_append prev offset (before ++ sep) (word ++ (taken ++ rest))
      rw [sweepFrom_of_some offset hscan, hlater, ← List.append_assoc before, hskip,
        lastChar_append, hmay, introductionsFrom_name hword hopens]
      · congr 2
        simp only [byteLength_append]
        omega
      · -- a name before this one would have been matched before it
        intro u v huv hv hstart name hname
        have hhead : ∀ {cs : List Char}, cs ≠ [] → (∀ c ∈ cs, isWord c = false) →
            ¬NameHere (cs ++ (word ++ (taken ++ rest))) name := by
          intro cs hne hcs hhere
          cases cs with
          | nil => exact hne rfl
          | cons c cs =>
            have hc := hcs c (by simp)
            rw [(nameHere_cons_iff.1 hhere).1] at hc
            cases hc
        rcases List.append_eq_append_iff.1 huv with ⟨more, rfl, rfl⟩ | ⟨more, rfl, rfl⟩
        · exact hhead hv (fun c hc => hsep c (List.mem_append_right more hc)) hname
        · cases more with
          | nil => exact hhead hv hsep hname
          | cons d more =>
            obtain ⟨u', v', rfl, hne⟩ := exists_separated?_ne_none hprev hstart hname
            apply hne
            have hnone := hfirst u' (v' ++ d :: more) (by simp) (by simp)
            simpa using hnone

/-- The search that consumes what it matches finds the introductions of a text. -/
theorem sweep_eq_introductions (text : List Char) : sweep text = introductions text :=
  sweepFrom_eq 0 text (.inl rfl)

/-! ## The blocks of a text -/

/-- **The blocks of a text are its introductions.** There is a list of offsets and words, strictly
increasing in the offsets, that holds exactly the introductions of the grammar whose word is not
reserved; the blocks are these in order, each with its word in lower case and one more than the
line feeds before it. Neither blanking the leading keyword nor consuming what is matched changes
anything. -/
theorem findBlocks_eq_grammar (text : List Char) :
    (∃ found : List Introduction,
      found.Pairwise (fun i j => i.offset < j.offset) ∧
      (∀ i, i ∈ found ↔ IntroducedAt text i.offset i.word ∧ isReserved i.word = false) ∧
      findBlocks text = found.map fun i =>
        ⟨String.ofList (lowerCase i.word), ((encode text).take i.offset).count 0x0A + 1⟩) ∧
    introductions (blankLeadingWith text) = introductions text ∧
    sweep (blankLeadingWith text) = introductions text := by
  refine ⟨⟨(introductions text).filter fun i => !isReserved i.word, ?_, ?_, ?_⟩,
    introductions_blankLeadingWith text, ?_⟩
  · exact (pairwise_introductionsFrom true 0 text).1.filter _
  · intro i
    rw [List.mem_filter, mem_introductions_iff, Bool.not_eq_true']
  · rw [findBlocks, introductions_blankLeadingWith]
    simp only [lineAt_eq_count]
  · rw [sweep_eq_introductions, introductions_blankLeadingWith]

end StagingAudit
