import Mathlib.Data.List.Basic
import StagingAudit.Block
import StagingAudit.Proofs.Directive.Masking

/-!
# Introductions

An introduction is a word between a separator and the opening of a body. `OpensBody` and `NameHere`
say what the recognisers take, and the search is described by what it skips: **nothing starts
inside an introduction, and none reaches over a word into the next one**, so the search may be
cut at any of them, and the keyword before the first block may be blanked or not.

The argument is a count. Up to the first parenthesis after it, the opening of a body has two
characters that are not white space, and a name with its opening has three at least.
-/

namespace StagingAudit

/-! ## Openings of bodies -/

/-- White space, `as` in any case, optional white space and a parenthesis. -/
inductive OpensBody : List Char → Prop where
  /-- the parts one after the other -/
  | mk {gap kw space : List Char} (gap_ne : gap ≠ []) (gap_white : ∀ c ∈ gap, isWhite c = true)
      (kw_as : Recogniser.SameLetters ['a', 's'] kw) (space_white : ∀ c ∈ space, isWhite c = true) :
      OpensBody (gap ++ (kw ++ (space ++ ['('])))

/-- How many characters of a text are not white space. -/
def inkCount (cs : List Char) : Nat := cs.countP fun c => !isWhite c

@[simp]
theorem inkCount_append (a b : List Char) : inkCount (a ++ b) = inkCount a + inkCount b :=
  List.countP_append

theorem inkCount_white {cs : List Char} (h : ∀ c ∈ cs, isWhite c = true) : inkCount cs = 0 := by
  rw [inkCount, List.countP_eq_zero]
  intro c hc
  simp [h c hc]

/-- The letters of a word are not white space in any form. -/
theorem isWhite_of_sameLetters {pattern text : List Char}
    (h : Recogniser.SameLetters pattern text)
    (hp : ∀ p ∈ pattern, isWhite (foldCase p) = false) : ∀ c ∈ text, isWhite c = false := by
  intro c hc
  obtain ⟨p, hmem, hsame⟩ := h.exists_of_mem hc
  exact isWhite_of_sameLetter hsame (hp p hmem)

/-- A character that is no form of a word's letters is not in the word. -/
theorem not_mem_of_sameLetters {pattern text : List Char} {d : Char}
    (h : Recogniser.SameLetters pattern text) (hd : ∀ p ∈ pattern, sameLetter p d = false) :
    d ∉ text := by
  intro hmem
  obtain ⟨p, hp, hsame⟩ := h.exists_of_mem hmem
  rw [hd p hp] at hsame
  cases hsame

/-- The recogniser for openings takes what the grammar says. -/
theorem openBody_eq_some_iff {cs rest : List Char} :
    openBody cs = some rest ↔ ∃ taken, OpensBody taken ∧ cs = taken ++ rest := by
  have hparen : ∀ c ∈ ('(' :: rest).head?, isWhite c = false := by
    intro c hc
    obtain rfl : '(' = c := by simpa using hc
    decide
  refine ⟨?_, ?_⟩
  · intro h
    simp only [openBody, Option.bind_eq_bind, Option.bind_eq_some_iff] at h
    obtain ⟨cs₁, hwhite, cs₂, hkw, hopen⟩ := h
    obtain ⟨gap, hne, hgap, rfl, -⟩ := Recogniser.run_eq_some_iff.1 hwhite
    obtain ⟨kw, hsame, rfl⟩ := Recogniser.folded_eq_some_iff.1 hkw
    obtain ⟨space, hspace, hcs₂⟩ := exists_append_skipWhite cs₂
    rw [Recogniser.literal_eq_some_iff] at hopen
    refine ⟨_, .mk hne hgap hsame hspace, ?_⟩
    rw [hcs₂, hopen]
    simp
  · rintro ⟨_, @⟨gap, kw, space, hne, hgap, hsame, hspace⟩, rfl⟩
    have hink := isWhite_of_sameLetters hsame (by decide)
    have hkw : ∀ c ∈ (kw ++ (space ++ '(' :: rest)).head?, isWhite c = false := by
      intro c hc
      cases hsame with
      | @cons _ d _ _ _ _ =>
        obtain rfl : d = c := by simpa using hc
        exact hink d (by simp)
    have htaken : gap ++ (kw ++ (space ++ ['('])) ++ rest =
        gap ++ (kw ++ (space ++ '(' :: rest)) := by simp
    rw [htaken]
    simp only [openBody, Option.bind_eq_bind]
    rw [show Recogniser.white1 (gap ++ (kw ++ (space ++ '(' :: rest))) =
        some (kw ++ (space ++ '(' :: rest)) from
          Recogniser.run_eq_some_iff.2 ⟨gap, hne, hgap, rfl, hkw⟩, Option.bind_some,
      Recogniser.folded_eq_some_iff.2 ⟨kw, hsame, rfl⟩, Option.bind_some,
      skipWhite_append_eq hspace hparen]
    rfl

namespace OpensBody

variable {taken : List Char}

/-- An opening ends at its only parenthesis and has two characters before it that are not white
space. -/
theorem exists_eq_concat (h : OpensBody taken) :
    ∃ front, taken = front ++ ['('] ∧ '(' ∉ front ∧ inkCount front = 2 := by
  obtain @⟨gap, kw, space, hne, hgap, hsame, hspace⟩ := h
  refine ⟨gap ++ (kw ++ space), by simp, ?_, ?_⟩
  · simp only [List.mem_append, not_or]
    exact ⟨not_mem_of_forall hgap (by decide), not_mem_of_sameLetters hsame (by decide),
      not_mem_of_forall hspace (by decide)⟩
  · have hkw : inkCount kw = 2 := by
      have hink := isWhite_of_sameLetters hsame (by decide)
      rw [inkCount, List.countP_eq_length.2 fun c hc => by simp [hink c hc], ← hsame.length_eq]
      rfl
    rw [inkCount_append, inkCount_append, inkCount_white hgap, inkCount_white hspace, hkw]

/-- A word ends where an opening starts. -/
theorem isWord_head (h : OpensBody taken) (rest : List Char) :
    ∀ c ∈ (taken ++ rest).head?, isWord c = false := by
  obtain @⟨gap, kw, space, hne, hgap, -, -⟩ := h
  intro c hc
  cases gap with
  | nil => exact absurd rfl hne
  | cons d gap =>
    obtain rfl : d = c := by simpa using hc
    exact isWord_of_isWhite (hgap d (by simp))

end OpensBody

/-! ## Names at a place

To cut a search at a place it has to be known that nothing which starts before the place reaches
over it. When the place is outside a word, a name that starts earlier ends before it, but its
opening could still reach over. An opening ends at the first parenthesis, though, and up to there it
has just two characters that are not white space. Where three of them come before the next
parenthesis (`Stops`) no earlier opening ends there, and the text up to the place can be treated by
itself. A name with its opening is the text of this kind that matters most. -/

/-- A name: word characters only, and at least one. -/
structure IsName (word : List Char) : Prop where
  /-- there is a character -/
  ne_nil : word ≠ []
  /-- every character is a word character -/
  isWord : ∀ c ∈ word, isWord c = true

theorem IsName.paren_not_mem {word : List Char} (h : IsName word) : '(' ∉ word :=
  not_mem_of_forall h.isWord (by decide)

theorem IsName.inkCount_pos {word : List Char} (h : IsName word) : 0 < inkCount word := by
  obtain ⟨c, hc⟩ := List.exists_mem_of_ne_nil word h.ne_nil
  exact List.countP_pos_iff.2 ⟨c, hc, by simp [isWhite_of_isWord (h.isWord c hc)]⟩

/-- A name that can be looked for: ASCII word characters, and at least one. -/
structure IsPlainName (name : List Char) : Prop extends IsName name where
  /-- every character is in ASCII -/
  isAscii : ∀ c ∈ name, c.toNat < 0x80

/-- Every way to write a name is a name. -/
theorem IsPlainName.isName {name word : List Char} (h : IsPlainName name)
    (hsame : Recogniser.SameLetters name word) : IsName word := by
  refine ⟨?_, fun c hc => ?_⟩
  · rintro rfl
    cases hsame
    exact h.ne_nil rfl
  · obtain ⟨p, hp, hletter⟩ := hsame.exists_of_mem hc
    exact isWord_of_sameLetter (h.isAscii p hp) (h.isWord p hp) hletter

/-- A name at the start of a text with the opening of a body right after it. -/
def NameHere (cs word : List Char) : Prop :=
  IsName word ∧ ∃ taken rest, OpensBody taken ∧ cs = word ++ (taken ++ rest)

theorem not_nameHere_nil {word : List Char} : ¬NameHere [] word := by
  rintro ⟨hname, taken, rest, -, hcs⟩
  exact hname.ne_nil (List.append_eq_nil_iff.1 hcs.symm).1

/-- The name at a place is the whole run of word characters there. -/
theorem nameHere_cons_iff {c : Char} {cs word : List Char} :
    NameHere (c :: cs) word ↔
      isWord c = true ∧ (openBody (cs.dropWhile isWord)).isSome ∧
        word = c :: cs.takeWhile isWord := by
  refine ⟨?_, ?_⟩
  · rintro ⟨⟨hne, hword⟩, taken, rest, hopens, hcs⟩
    cases word with
    | nil => exact absurd rfl hne
    | cons d word =>
      rw [List.cons_append] at hcs
      obtain ⟨rfl, rfl⟩ := List.cons.inj hcs
      have htail : ∀ d ∈ word, isWord d = true := fun d hd => hword d (List.mem_cons_of_mem _ hd)
      refine ⟨hword c (by simp), ?_, ?_⟩
      · rw [dropWhile_append_eq htail (hopens.isWord_head rest),
          openBody_eq_some_iff.2 ⟨taken, hopens, rfl⟩]
        rfl
      · rw [takeWhile_append_eq htail (hopens.isWord_head rest)]
  · rintro ⟨hc, hopen, rfl⟩
    obtain ⟨rest, hrest⟩ := Option.isSome_iff_exists.1 hopen
    obtain ⟨taken, hopens, hdrop⟩ := openBody_eq_some_iff.1 hrest
    refine ⟨⟨by simp, ?_⟩, taken, rest, hopens, ?_⟩
    · intro d hd
      rcases List.mem_cons.1 hd with rfl | hd
      · exact hc
      · exact List.mem_takeWhile_imp hd
    · rw [← hdrop, List.cons_append, List.takeWhile_append_dropWhile]

/-- At most one name stands at a place. -/
theorem NameHere.unique {cs word word' : List Char} (h : NameHere cs word)
    (h' : NameHere cs word') : word' = word := by
  cases cs with
  | nil => exact absurd h not_nameHere_nil
  | cons c cs => rw [(nameHere_cons_iff.1 h).2.2, (nameHere_cons_iff.1 h').2.2]

/-- Up to its parenthesis a name and its opening have three characters that are not white space. -/
theorem NameHere.exists_front {cs word : List Char} (h : NameHere cs word) :
    ∃ front rest, cs = front ++ '(' :: rest ∧ '(' ∉ front ∧ 3 ≤ inkCount front := by
  obtain ⟨hname, taken, rest, hopens, rfl⟩ := h
  obtain ⟨front, rfl, hfront, hink⟩ := hopens.exists_eq_concat
  refine ⟨word ++ front, rest, by simp, ?_, ?_⟩
  · rw [List.mem_append, not_or]
    exact ⟨hname.paren_not_mem, hfront⟩
  · have hpos := hname.inkCount_pos
    rw [inkCount_append, hink]
    omega

/-- A text whose first parenthesis has three characters before it that are not white space: no
opening of a body ends there that has started before the text. -/
def Stops (cs : List Char) : Prop :=
  ∀ front rest, cs = front ++ '(' :: rest → '(' ∉ front → 3 ≤ inkCount front

/-- Something else than white space in front of an opening stops others. -/
theorem stops_append {cs taken : List Char} (hparen : '(' ∉ cs) (hink : 0 < inkCount cs)
    (h : OpensBody taken) (rest : List Char) : Stops (cs ++ (taken ++ rest)) := by
  obtain ⟨front, rfl, hfront, hcount⟩ := h.exists_eq_concat
  intro front' rest' heq hfront'
  have hsplit : (cs ++ front) ++ '(' :: rest = front' ++ '(' :: rest' := by
    rw [← heq]
    simp
  have hnot : '(' ∉ cs ++ front := by
    rw [List.mem_append, not_or]
    exact ⟨hparen, hfront⟩
  obtain ⟨rfl, -⟩ := eq_of_concat_append hnot hfront' hsplit
  rw [inkCount_append, hcount]
  omega

/-- A name that starts before a stop has its opening before it too. -/
theorem nameHere_append_iff {cs more word : List Char} {c : Char} (hlast : cs.getLast? = some c)
    (hc : isWord c = false) (hstops : Stops more) :
    NameHere (cs ++ more) word ↔ NameHere cs word := by
  obtain ⟨init, rfl⟩ := List.getLast?_eq_some_iff.1 hlast
  refine ⟨?_, ?_⟩
  · rintro ⟨hname, taken, rest, hopens, heq⟩
    refine ⟨hname, ?_⟩
    have hsplit : word ++ (taken ++ rest) = init ++ c :: more := by
      rw [← heq]
      simp
    obtain ⟨mid, rfl, hmid⟩ := exists_append_of_not_mem hsplit (not_mem_of_forall hname.isWord hc)
    obtain ⟨front, rfl, hfront, hcount⟩ := hopens.exists_eq_concat
    by_cases hparen : '(' ∈ mid ++ [c]
    · -- the opening ends at the first parenthesis, which is before the stop
      obtain ⟨p, q, hpq, hp⟩ := List.eq_append_cons_of_mem hparen
      have heq' : front ++ '(' :: rest = p ++ '(' :: (q ++ more) := by
        calc front ++ '(' :: rest = (mid ++ [c]) ++ more := by simpa using hmid
          _ = p ++ '(' :: (q ++ more) := by rw [hpq]; simp
      obtain ⟨rfl, rfl⟩ := eq_of_concat_append hfront hp heq'
      exact ⟨_, q, hopens, by rw [List.append_assoc, hpq]; simp⟩
    · -- the opening would end behind the stop, with more in it than an opening has
      exfalso
      have heq' : (mid ++ [c]) ++ more = front ++ '(' :: rest := by simpa using hmid.symm
      obtain ⟨z, rfl, rfl⟩ := exists_append_of_not_mem heq' hparen
      have hz := hstops z rest rfl fun hmem => hfront (List.mem_append_right _ hmem)
      rw [inkCount_append] at hcount
      omega
  · rintro ⟨hname, taken, rest, hopens, heq⟩
    exact ⟨hname, taken, rest ++ more, hopens, by rw [heq]; simp⟩

/-- No name stands in a text without parentheses that ends outside a word before a stop. -/
theorem not_nameHere_before {a b : List Char} {c : Char} (hlast : a.getLast? = some c)
    (hc : isWord c = false) (hparen : '(' ∉ a) (hstops : Stops b) {u v word : List Char}
    (ha : a = u ++ v) (hv : v ≠ []) : ¬NameHere (v ++ b) word := by
  intro hname
  have hlast' : v.getLast? = some c := by
    rw [ha, List.getLast?_append_of_ne_nil u hv] at hlast
    exact hlast
  rw [nameHere_append_iff hlast' hc hstops] at hname
  obtain ⟨front, rest, rfl, -⟩ := hname.exists_front
  exact hparen (by simp [ha])

/-- No name starts inside a name and its opening, unless inside the word. -/
theorem not_nameHere_inside {word taken rest u v word' : List Char} {prev : Option Char}
    (hword : IsName word) (h : OpensBody taken) (huv : word ++ taken = u ++ v) (hu : u ≠ [])
    (hv : v ≠ []) (hedge : isWordAt (lastChar prev u) = false) : ¬NameHere (v ++ rest) word' := by
  intro hname
  obtain ⟨front, htaken, hfront, hcount⟩ := h.exists_eq_concat
  rcases List.append_eq_append_iff.1 huv with ⟨more, rfl, htail⟩ | ⟨more, rfl, rfl⟩
  · -- in the opening, where too little is left before the parenthesis
    rw [htaken] at htail
    obtain ⟨v, rfl, rfl⟩ := exists_concat_of_append htail hv
    obtain ⟨front', rest', heq, hfront', hcount'⟩ := hname.exists_front
    rw [List.append_assoc, List.singleton_append] at heq
    rw [List.mem_append, not_or] at hfront
    obtain ⟨rfl, -⟩ := eq_of_concat_append hfront.2 hfront' heq
    rw [inkCount_append] at hcount
    omega
  · -- in the word, where the character before the place is one of it
    cases u with
    | nil => exact hu rfl
    | cons c u =>
      obtain ⟨d, hd, hlast⟩ := exists_lastChar c u
      rw [lastChar_cons, hlast, isWordAt_some, hword.isWord d (List.mem_append_left _ hd)] at hedge
      cases hedge

/-! ## The search

The search asks at every place, also inside what it has found. Since nothing starts there, a name
with its opening can be passed in one step (`introductionsFrom_name`), and so can a text without
parentheses in front of it (`introductionsFrom_skip`). These two are the steps in which a whole text
is gone over later. -/

/-- Whether a name may start after a character, or at the start of a text. -/
def mayStart : Option Char → Bool
  | some c => opensName c
  | none => true

@[simp]
theorem mayStart_none : mayStart none = true := rfl

@[simp]
theorem mayStart_some (c : Char) : mayStart (some c) = opensName c := rfl

/-- A separator is no word character. -/
theorem isWord_of_opensName {c : Char} (h : opensName c = true) : isWord c = false := by
  simp only [opensName, Bool.or_eq_true, beq_iff_eq] at h
  rcases h with hwhite | rfl
  · exact isWord_of_isWhite hwhite
  · decide

/-- Where a name may start no word goes on. -/
theorem isWordAt_of_mayStart {prev : Option Char} (h : mayStart prev = true) :
    isWordAt prev = false := by
  cases prev with
  | none => rfl
  | some c => exact isWord_of_opensName h

/-- A place where a name may not start, or where there is none, adds nothing. -/
theorem introductionsFrom_of_not {start : Bool} {offset : Nat} {c : Char} {cs : List Char}
    (h : start = true → ∀ word, ¬NameHere (c :: cs) word) :
    introductionsFrom start offset (c :: cs) =
      introductionsFrom (opensName c) (offset + c.utf8Size) cs := by
  rw [introductionsFrom]
  refine if_neg fun hif => ?_
  simp only [Bool.and_eq_true] at hif
  obtain ⟨⟨hstart, hc⟩, hopen⟩ := hif
  exact h hstart _ (nameHere_cons_iff.2 ⟨hc, hopen, rfl⟩)

/-- A name where one may start is an introduction. -/
theorem introductionsFrom_of_nameHere {offset : Nat} {c : Char} {cs word : List Char}
    (h : NameHere (c :: cs) word) :
    introductionsFrom true offset (c :: cs) =
      ⟨offset, word⟩ :: introductionsFrom (opensName c) (offset + c.utf8Size) cs := by
  obtain ⟨hc, hopen, rfl⟩ := nameHere_cons_iff.1 h
  rw [introductionsFrom, if_pos (by simp [hc, hopen])]

/-- The search goes on behind a text in which nothing starts. -/
theorem introductionsFrom_append {prev : Option Char} {offset : Nat} {a b : List Char}
    (h : ∀ u v, a = u ++ v → v ≠ [] → mayStart (lastChar prev u) = true →
      ∀ word, ¬NameHere (v ++ b) word) :
    introductionsFrom (mayStart prev) offset (a ++ b) =
      introductionsFrom (mayStart (lastChar prev a)) (offset + byteLength a) b := by
  induction a generalizing prev offset with
  | nil => rfl
  | cons c a ih =>
    have hhead : mayStart prev = true → ∀ word, ¬NameHere (c :: (a ++ b)) word :=
      h [] (c :: a) rfl (by simp)
    have htail := @ih (some c) (offset + c.utf8Size) fun u v ha hv => by
      have hu := h (c :: u) v (by rw [ha, List.cons_append]) hv
      rwa [lastChar_cons] at hu
    rw [List.cons_append, introductionsFrom_of_not hhead, ← mayStart_some, htail, lastChar_cons,
      byteLength_cons, Nat.add_assoc]

/-- Nothing starts in a text without parentheses that ends outside a word before a stop. -/
theorem introductionsFrom_skip {prev : Option Char} {offset : Nat} {a b : List Char} {c : Char}
    (hlast : a.getLast? = some c) (hc : isWord c = false) (hparen : '(' ∉ a) (hstops : Stops b) :
    introductionsFrom (mayStart prev) offset (a ++ b) =
      introductionsFrom (mayStart (some c)) (offset + byteLength a) b := by
  have hskip := @introductionsFrom_append prev offset a b fun u v ha hv _ _ =>
    not_nameHere_before hlast hc hparen hstops ha hv
  rw [hskip, lastChar, hlast]
  rfl

/-- A name and its opening make one introduction, and nothing starts inside them. -/
theorem introductionsFrom_name {offset : Nat} {word taken rest : List Char} (hword : IsName word)
    (h : OpensBody taken) :
    introductionsFrom true offset (word ++ (taken ++ rest)) =
      ⟨offset, word⟩ ::
        introductionsFrom false (offset + (byteLength word + byteLength taken)) rest := by
  cases word with
  | nil => exact absurd rfl hword.ne_nil
  | cons c word =>
    have hname : NameHere (c :: (word ++ (taken ++ rest))) (c :: word) :=
      ⟨hword, taken, rest, h, rfl⟩
    have hskip := @introductionsFrom_append (some c) (offset + c.utf8Size) (word ++ taken) rest
    rw [List.cons_append, introductionsFrom_of_nameHere hname, ← mayStart_some, ← List.append_assoc,
      hskip]
    · obtain ⟨front, htaken, -, -⟩ := h.exists_eq_concat
      have hlast : lastChar (some c) (word ++ taken) = some '(' := by
        rw [htaken, ← List.append_assoc, lastChar_concat]
      have hbytes : offset + c.utf8Size + byteLength (word ++ taken) =
          offset + (byteLength (c :: word) + byteLength taken) := by
        rw [byteLength_append, byteLength_cons]
        omega
      rw [hlast, hbytes]
      rfl
    · intro u v huv hv hstart word'
      have hedge : isWordAt (lastChar none (c :: u)) = false := by
        rw [lastChar_cons]
        exact isWordAt_of_mayStart hstart
      exact not_nameHere_inside hword h (by rw [List.cons_append, huv, List.cons_append])
        (by simp) hv hedge

/-- The search lists the places of the grammar. -/
theorem mem_introductionsFrom_iff {prev : Option Char} {offset : Nat} {cs : List Char}
    {i : Introduction} :
    i ∈ introductionsFrom (mayStart prev) offset cs ↔
      ∃ before rest, cs = before ++ rest ∧ i.offset = offset + byteLength before ∧
        mayStart (lastChar prev before) = true ∧ NameHere rest i.word := by
  induction cs generalizing prev offset with
  | nil =>
    refine ⟨?_, ?_⟩
    · intro h
      cases h
    · rintro ⟨before, rest, hcs, -, -, hname⟩
      obtain ⟨rfl, rfl⟩ := List.append_eq_nil_iff.1 hcs.symm
      exact absurd hname not_nameHere_nil
  | cons c cs ih =>
    -- the places behind the first one are those of the induction hypothesis
    have hlater : i ∈ introductionsFrom (opensName c) (offset + c.utf8Size) cs ↔
        ∃ before rest, c :: cs = (c :: before) ++ rest ∧
          i.offset = offset + byteLength (c :: before) ∧
          mayStart (lastChar prev (c :: before)) = true ∧ NameHere rest i.word := by
      rw [← mayStart_some, ih]
      simp only [List.cons_append, List.cons.injEq, true_and, lastChar_cons, byteLength_cons,
        Nat.add_assoc]
    by_cases hhere : mayStart prev = true ∧ ∃ word, NameHere (c :: cs) word
    · obtain ⟨hstart, word, hname⟩ := hhere
      rw [hstart, introductionsFrom_of_nameHere hname, List.mem_cons, hlater]
      refine ⟨?_, ?_⟩
      · rintro (rfl | ⟨before, rest, hcs, hrest⟩)
        · exact ⟨[], c :: cs, rfl, rfl, hstart, hname⟩
        · exact ⟨c :: before, rest, hcs, hrest⟩
      · rintro ⟨before, rest, hcs, hoff, hmay, hname'⟩
        cases before with
        | nil =>
          left
          obtain rfl : c :: cs = rest := hcs
          obtain ⟨-, -, hw⟩ := nameHere_cons_iff.1 hname
          obtain ⟨-, -, hw'⟩ := nameHere_cons_iff.1 hname'
          cases i
          simp_all
        | cons b before =>
          obtain ⟨rfl, -⟩ := List.cons.inj hcs
          exact .inr ⟨before, rest, hcs, hoff, hmay, hname'⟩
    · rw [introductionsFrom_of_not fun hstart word hname => hhere ⟨hstart, word, hname⟩, hlater]
      refine ⟨?_, ?_⟩
      · rintro ⟨before, rest, hcs, hrest⟩
        exact ⟨c :: before, rest, hcs, hrest⟩
      · rintro ⟨before, rest, hcs, hoff, hmay, hname'⟩
        cases before with
        | nil =>
          obtain rfl : c :: cs = rest := hcs
          exact absurd ⟨hmay, i.word, hname'⟩ hhere
        | cons b before =>
          obtain ⟨rfl, -⟩ := List.cons.inj hcs
          exact ⟨before, rest, hcs, hoff, hmay, hname'⟩

/-- The search lists places from left to right and each once. -/
theorem pairwise_introductionsFrom (start : Bool) (offset : Nat) (cs : List Char) :
    (introductionsFrom start offset cs).Pairwise (fun i j => i.offset < j.offset) ∧
      ∀ i ∈ introductionsFrom start offset cs, offset ≤ i.offset := by
  induction cs generalizing start offset with
  | nil => exact ⟨.nil, by simp [introductionsFrom]⟩
  | cons c cs ih =>
    obtain ⟨hpairs, hleast⟩ := ih (opensName c) (offset + c.utf8Size)
    have hpos := Char.utf8Size_pos c
    have hleast' : ∀ i ∈ introductionsFrom (opensName c) (offset + c.utf8Size) cs,
        offset < i.offset := by
      intro i hi
      have := hleast i hi
      omega
    rw [introductionsFrom]
    split
    · refine ⟨List.pairwise_cons.2 ⟨hleast', hpairs⟩, ?_⟩
      intro i hi
      rcases List.mem_cons.1 hi with rfl | hi
      · exact Nat.le_refl offset
      · exact (hleast' i hi).le
    · exact ⟨hpairs, fun i hi => (hleast' i hi).le⟩

/-! ## The leading keyword

The keyword that is blanked has white space behind it and then a name with its opening. That is a
stop, whether what stands in front of it is blank or not. So nothing that starts in front of the
keyword depends on it, and neither its letters nor the white space start anything. The name may
start behind the white space in either text. -/

/-- Texts with the same names at the first place and the same introductions behind it. -/
theorem introductionsFrom_congr {start : Bool} {offset : Nat} {c : Char} {a b : List Char}
    (hhere : ∀ word, NameHere (c :: a) word ↔ NameHere (c :: b) word)
    (hlater : introductionsFrom (opensName c) (offset + c.utf8Size) a =
      introductionsFrom (opensName c) (offset + c.utf8Size) b) :
    introductionsFrom start offset (c :: a) = introductionsFrom start offset (c :: b) := by
  by_cases hname : start = true ∧ ∃ word, NameHere (c :: a) word
  · obtain ⟨rfl, word, hword⟩ := hname
    rw [introductionsFrom_of_nameHere hword, introductionsFrom_of_nameHere ((hhere word).1 hword),
      hlater]
  · have hnot : start = true → ∀ word, ¬NameHere (c :: a) word :=
      fun hstart word hword => hname ⟨hstart, word, hword⟩
    rw [introductionsFrom_of_not hnot, hlater, introductionsFrom_of_not]
    intro hstart word hword
    exact hnot hstart word ((hhere word).2 hword)

/-- What the leading keyword looks like: the letters of `with` outside a word, and behind white
space a name and its opening. -/
theorem exists_of_leadingWith {prev : Option Char} {cs rest : List Char}
    (h : leadingWith prev cs = some rest) :
    ∃ kw gap word taken after, cs = kw ++ rest ∧ rest = gap ++ (word ++ (taken ++ after)) ∧
      isWordAt prev = false ∧ Recogniser.SameLetters ['w', 'i', 't', 'h'] kw ∧
      gap ≠ [] ∧ (∀ c ∈ gap, isWhite c = true) ∧ IsName word ∧ OpensBody taken := by
  unfold leadingWith at h
  split at h
  · next hedge =>
    simp only [Option.bind_eq_bind, Option.bind_eq_some_iff] at h
    obtain ⟨rest', hkw, name, hwhite, tail, hword, after, hopen, hpure⟩ := h
    cases hpure
    obtain ⟨kw, hsame, rfl⟩ := Recogniser.folded_eq_some_iff.1 hkw
    obtain ⟨gap, hgap, hgapWhite, rfl, -⟩ := Recogniser.run_eq_some_iff.1 hwhite
    obtain ⟨word, hne, hwordAll, rfl, -⟩ := Recogniser.run_eq_some_iff.1 hword
    obtain ⟨taken, hopens, rfl⟩ := openBody_eq_some_iff.1 hopen
    refine ⟨kw, gap, word, taken, after, rfl, rfl, ?_, hsame, hgap, hgapWhite,
      ⟨hne, hwordAll⟩, hopens⟩
    cases hsame with
    | @cons _ d _ _ hw _ =>
      have hd : isWord d = true := isWord_of_sameLetter (by decide) (by decide) hw
      simpa [wordEdge, hd] using hedge
  · cases h

/-- A keyword of any letters before a name and its opening may as well be blank. -/
theorem introductionsFrom_blank {prev : Option Char} {offset : Nat}
    {before kw gap word taken after : List Char} (hkw : '(' ∉ kw)
    (hgap : gap ≠ []) (hgapWhite : ∀ c ∈ gap, isWhite c = true) (hword : IsName word)
    (hopens : OpensBody taken) (hedge : isWordAt (lastChar prev before) = false) :
    introductionsFrom (mayStart prev) offset
        (before ++ (blank kw ++ (gap ++ (word ++ (taken ++ after))))) =
      introductionsFrom (mayStart prev) offset
        (before ++ (kw ++ (gap ++ (word ++ (taken ++ after))))) := by
  have hblank : '(' ∉ blank kw := not_mem_of_forall (fun _ => isBlank_of_mem_blank) (by decide)
  have hgapParen : '(' ∉ gap := not_mem_of_forall hgapWhite (by decide)
  have hink := hword.inkCount_pos
  induction before generalizing prev offset with
  | nil =>
    -- both texts are skipped up to the name
    obtain ⟨g, hlast⟩ : ∃ g, gap.getLast? = some g := by
      rw [← Option.isSome_iff_exists, List.getLast?_isSome]
      exact hgap
    have hg : isWord g = false := isWord_of_isWhite (hgapWhite g (List.mem_of_getLast? hlast))
    have hskip : ∀ {cs : List Char}, '(' ∉ cs →
        introductionsFrom (mayStart prev) offset (cs ++ (gap ++ (word ++ (taken ++ after)))) =
          introductionsFrom (mayStart (some g)) (offset + byteLength (cs ++ gap))
            (word ++ (taken ++ after)) := by
      intro cs hcs
      rw [← List.append_assoc cs]
      refine introductionsFrom_skip ?_ hg ?_ (stops_append hword.paren_not_mem hink hopens after)
      · rw [List.getLast?_append_of_ne_nil cs hgap, hlast]
      · rw [List.mem_append, not_or]
        exact ⟨hcs, hgapParen⟩
    rw [List.nil_append, List.nil_append, hskip hblank, hskip hkw, byteLength_append,
      byteLength_append, byteLength_blank]
  | cons c before ih =>
    rw [lastChar_cons] at hedge
    obtain ⟨d, -, hlast⟩ := exists_lastChar c before
    have hlast' : (c :: before).getLast? = some d := by
      rw [List.getLast?_cons, ← hlast, lastChar]
      cases before.getLast? <;> rfl
    have hd : isWord d = false := by
      rw [hlast, isWordAt_some] at hedge
      exact hedge
    have hstops : ∀ {cs : List Char}, '(' ∉ cs →
        Stops (cs ++ (gap ++ (word ++ (taken ++ after)))) := by
      intro cs hcs
      have hall : '(' ∉ cs ++ (gap ++ word) := by
        simp only [List.mem_append, not_or]
        exact ⟨hcs, hgapParen, hword.paren_not_mem⟩
      have hcount : 0 < inkCount (cs ++ (gap ++ word)) := by
        rw [inkCount_append, inkCount_append]
        omega
      simpa using stops_append hall hcount hopens after
    refine introductionsFrom_congr (fun name => ?_) (ih hedge)
    exact (nameHere_append_iff hlast' hd (hstops hblank)).trans
      (nameHere_append_iff hlast' hd (hstops hkw)).symm

/-- Blanking the leading keyword changes no introduction. -/
theorem introductions_blankLeadingWith (text : List Char) :
    introductions (blankLeadingWith text) = introductions text := by
  unfold blankLeadingWith
  split
  · next before rest hscan =>
    obtain ⟨cs, rfl, hlead, -⟩ := scan?_eq_some_iff.1 hscan
    obtain ⟨kw, gap, word, taken, after, rfl, rfl, hedge, hsame, hgap, hgapWhite, hword, hopens⟩ :=
      exists_of_leadingWith hlead
    have hfour : ((before ++ (kw ++ (gap ++ (word ++ (taken ++ after))))).drop before.length).take 4
        = kw := by
      rw [List.drop_left]
      exact List.take_left' hsame.length_eq.symm
    rw [hfour, List.append_assoc]
    exact introductionsFrom_blank (not_mem_of_sameLetters hsame (by decide)) hgap hgapWhite hword
      hopens hedge
  · rfl

end StagingAudit
