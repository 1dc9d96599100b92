import StagingAudit.Proofs.Block.Grammar
import StagingAudit.Proofs.Directive.Occurrence
import StagingAudit.Region

/-!
# The ends of a region

A region starts behind the introduction of its block and ends before a parenthesis, a comma and
the introduction of the next one. Both are shapes without braces, from a character that stripping
could not have written to a parenthesis, so that searches for them can be compared in the raw and
in the stripped text.

The introduction of a block is looked for in two ways, by its grammar and by its name. **A block
that the grammar finds under a name is also found by that name** (`standsAt_of_isNamed`).
-/

namespace StagingAudit

/-! ## Introductions by name

The search by name asks for less than the grammar in two ways. A word edge is enough before the
name, where the grammar wants a separator, and the letters of the name are enough, where the grammar
wants the lower case of the whole word. A word whose lower case is an ASCII name has the letters of
the name, with the Kelvin sign for `k` at most. So whatever the grammar finds under a name is found
by the name as well, and not the other way round: `regionOf_iff` is about the difference. -/

/-- The letters of a name in any case, and the opening of a body. -/
def IntroducesBlock (name taken : List Char) : Prop :=
  ∃ word opening, Recogniser.SameLetters name word ∧ OpensBody opening ∧ taken = word ++ opening

/-- A word edge before a word character is where no word has started yet. -/
theorem wordEdge_some {prev : Option Char} {c : Char} (hc : isWord c = true) :
    wordEdge prev (some c) = !isWordAt prev := by
  rw [wordEdge, isWordAt_some, hc]
  cases isWordAt prev <;> rfl

/-- The recogniser of introductions by name takes the name and an opening, where no word goes on. -/
theorem introduces_eq_some_iff {name cs rest : List Char} {prev : Option Char}
    (hname : IsPlainName name) :
    introduces name prev cs = some rest ↔
      (!isWordAt prev) = true ∧ ∃ taken, IntroducesBlock name taken ∧ cs = taken ++ rest := by
  have hedge : ∀ {word tail : List Char}, Recogniser.SameLetters name word →
      wordEdge prev (word ++ tail).head? = !isWordAt prev := by
    intro word tail hsame
    have hword := hname.isName hsame
    cases word with
    | nil => exact absurd rfl hword.ne_nil
    | cons c word => exact wordEdge_some (hword.isWord c (by simp))
  unfold introduces
  refine ⟨?_, ?_⟩
  · intro h
    split at h
    · next hif =>
      obtain ⟨tail, hfolded, hopen⟩ := Option.bind_eq_some_iff.1 h
      obtain ⟨word, hsame, rfl⟩ := Recogniser.folded_eq_some_iff.1 hfolded
      obtain ⟨opening, hopens, rfl⟩ := openBody_eq_some_iff.1 hopen
      refine ⟨by rw [← hedge hsame, hif], _, ⟨word, opening, hsame, hopens, rfl⟩, ?_⟩
      rw [List.append_assoc]
    · cases h
  · rintro ⟨hprev, _, ⟨word, opening, hsame, hopens, rfl⟩, rfl⟩
    rw [List.append_assoc, if_pos (by rw [hedge hsame, hprev]),
      Recogniser.folded_eq_some_iff.2 ⟨word, hsame, rfl⟩, Option.bind_some,
      openBody_eq_some_iff.2 ⟨opening, hopens, rfl⟩]

/-- White space has no brace in it. -/
theorem brace_not_mem_white {cs : List Char} (h : ∀ c ∈ cs, isWhite c = true) :
    ∀ c ∈ braces, c ∉ cs := fun c hc =>
  not_mem_of_forall h ((by decide : ∀ c ∈ braces, isWhite c = false) c hc)

/-- A name has no brace in it. -/
theorem IsName.brace_not_mem {word : List Char} (h : IsName word) : ∀ c ∈ braces, c ∉ word := by
  have hbrace : ∀ c ∈ braces, StagingAudit.isWord c = false := by decide
  exact fun c hc => not_mem_of_forall h.isWord (hbrace c hc)

/-- An opening has no brace in it. -/
theorem OpensBody.brace_not_mem {opening : List Char} (h : OpensBody opening) :
    ∀ c ∈ braces, c ∉ opening := by
  obtain @⟨gap, kw, space, -, hgap, hsame, hspace⟩ := h
  intro c hc
  simp only [List.mem_append, not_or]
  refine ⟨brace_not_mem_white hgap c hc, not_mem_of_sameLetters hsame ?_,
    brace_not_mem_white hspace c hc, ?_⟩
  · exact (by decide : ∀ c ∈ braces, ∀ p ∈ ['a', 's'], sameLetter p c = false) c hc
  · exact (by decide : ∀ c ∈ braces, c ∉ ['(']) c hc

/-- Blank characters are white space. -/
theorem isWhite_of_isBlank {c : Char} (h : isBlank c = true) : isWhite c = true := by
  simp only [isBlank, Bool.or_eq_true, beq_iff_eq] at h
  rcases h with (rfl | rfl) | rfl <;> decide

/-- Word characters are not blank. -/
theorem isBlank_of_isWord {c : Char} (h : isWord c = true) : isBlank c = false := by
  cases hblank : isBlank c with
  | false => rfl
  | true =>
    rw [isWord_of_isWhite (isWhite_of_isBlank hblank)] at h
    cases h

/-- Introductions by name are a shape. -/
def introducesShape {name : List Char} (hname : IsPlainName name) : Shape (introduces name) where
  edge prev := !isWordAt prev
  Takes := IntroducesBlock name
  eq_some_iff := introduces_eq_some_iff hname
  edge_brace := by decide
  exists_eq := by
    rintro _ ⟨word, opening, hsame, hopens, rfl⟩
    obtain ⟨front, rfl, -⟩ := hopens.exists_eq_concat
    have hword := hname.isName hsame
    cases word with
    | nil => exact absurd rfl hword.ne_nil
    | cons c word =>
      exact ⟨c, word ++ front, by simp, isBlank_of_isWord (hword.isWord c (by simp))⟩
  brace_not_mem := by
    rintro _ ⟨word, opening, hsame, hopens, rfl⟩ c hc
    rw [List.mem_append, not_or]
    exact ⟨(hname.isName hsame).brace_not_mem c hc, hopens.brace_not_mem c hc⟩

/-- An introduction by name never stands at the end of another one. -/
theorem IntroducesBlock.eq_nil {name u taken : List Char} (hname : IsPlainName name)
    (h : IntroducesBlock name (u ++ taken)) (h' : IntroducesBlock name taken) : u = [] := by
  have hink : ∀ {taken : List Char}, IntroducesBlock name taken →
      inkCount taken = name.length + 3 := by
    rintro _ ⟨word, opening, hsame, hopens, rfl⟩
    obtain ⟨front, rfl, -, hcount⟩ := hopens.exists_eq_concat
    have hword : inkCount word = name.length := by
      rw [hsame.length_eq, inkCount, List.countP_eq_length]
      intro c hc
      simp [isWhite_of_isWord ((hname.isName hsame).isWord c hc)]
    rw [inkCount_append, inkCount_append, hword, hcount]
    rfl
  have hcount := hink h
  rw [inkCount_append, hink h'] at hcount
  -- what is left over would start with a character of the name
  cases u with
  | nil => rfl
  | cons c u =>
    exfalso
    obtain ⟨word, opening, hsame, -, heq⟩ := h
    have hword := hname.isName hsame
    cases word with
    | nil => exact hword.ne_nil rfl
    | cons d word =>
      obtain ⟨rfl, -⟩ := List.cons.inj heq
      have hwhite := isWhite_of_isWord (hword.isWord c (by simp))
      have hpos : 0 < inkCount (c :: u) := List.countP_pos_iff.2 ⟨c, by simp, by simp [hwhite]⟩
      omega

/-- The required names can be looked for. -/
theorem isPlainName_of_required {name : String} (h : name ∈ requiredBlocks) :
    IsPlainName name.toList := by
  have hall : ∀ n ∈ requiredBlocks, n.toList ≠ [] ∧ (∀ c ∈ n.toList, isWord c = true) ∧
      ∀ c ∈ n.toList, c.toNat < 0x80 := by decide
  obtain ⟨hne, hword, hascii⟩ := hall name h
  exact ⟨⟨hne, hword⟩, hascii⟩

/-- The introductions that become blocks, in order. -/
def blockIntroductions (text : List Char) : List Introduction :=
  (introductions (blankLeadingWith text)).filter fun i => !isReserved i.word

/-- The block that an introduction becomes. -/
def Introduction.toBlock (text : List Char) (i : Introduction) : Block :=
  ⟨String.ofList (lowerCase i.word), lineAt text i.offset⟩

theorem findBlocks_eq_map (text : List Char) :
    findBlocks text = (blockIntroductions text).map (Introduction.toBlock text) := rfl

/-- An introduction becomes a block where a name may start and one that is not reserved stands. -/
theorem mem_blockIntroductions_iff {text : List Char} {i : Introduction} :
    i ∈ blockIntroductions text ↔ isReserved i.word = false ∧
      ∃ before rest, text = before ++ rest ∧ i.offset = byteLength before ∧
        mayStart before.getLast? = true ∧ NameHere rest i.word := by
  rw [blockIntroductions, List.mem_filter, introductions_blankLeadingWith, mem_introductions_iff,
    introducedAt_iff, Bool.not_eq_true', and_comm]

/-- Where an introduction stands that becomes a block. -/
theorem exists_of_mem_blockIntroductions {text : List Char} {i : Introduction}
    (h : i ∈ blockIntroductions text) :
    ∃ before opening after, text = before ++ ((i.word ++ opening) ++ after) ∧
      byteLength before = i.offset ∧ isWordAt before.getLast? = false ∧ IsName i.word ∧
      OpensBody opening := by
  obtain ⟨-, before, rest, rfl, hoffset, hmay, hname, opening, after, hopens, rfl⟩ :=
    mem_blockIntroductions_iff.1 h
  refine ⟨before, opening, after, ?_, hoffset.symm, isWordAt_of_mayStart hmay, hname, hopens⟩
  rw [List.append_assoc]

/-- A block that goes by an ASCII name has the letters of the name. -/
theorem sameLetters_of_isNamed {name : String} {text : List Char} {i : Introduction}
    (hname : ∀ c ∈ name.toList, c.toNat < 0x80) (h : (i.toBlock text).isNamed name = true) :
    Recogniser.SameLetters name.toList i.word := by
  rw [Introduction.toBlock, Block.isNamed, String.toList_ofList] at h
  exact Recogniser.sameLetters_of_lowerCase hname h

/-- A block that is found under a name is introduced by that name. -/
theorem standsAt_of_isNamed {name : String} {text : List Char} (hname : IsPlainName name.toList)
    (h : (findBlocks text).any (·.isNamed name) = true) :
    ∃ i j, StandsAt (introduces name.toList) text i j := by
  obtain ⟨block, hmem, hnamed⟩ := List.any_eq_true.1 h
  rw [findBlocks_eq_map] at hmem
  obtain ⟨i, hi, rfl⟩ := List.mem_map.1 hmem
  have hsame := sameLetters_of_isNamed hname.isAscii hnamed
  obtain ⟨before, opening, after, htext, -, hedge, -, hopens⟩ := exists_of_mem_blockIntroductions hi
  refine ⟨_, _, (introducesShape hname).standsAt_iff.2 ⟨before, i.word ++ opening, after, htext, ?_,
    ⟨i.word, opening, hsame, hopens, rfl⟩, rfl, rfl⟩⟩
  rw [lastChar, Option.or_none]
  show (!isWordAt before.getLast?) = true
  rw [hedge]
  rfl

/-- A block that is introduced by a name stands there under it. -/
theorem nameHere_of_introduces {name cs rest : List Char} {prev : Option Char}
    (hname : IsPlainName name) (h : introduces name prev cs = some rest) :
    isWordAt prev = false ∧ ∃ word, Recogniser.SameLetters name word ∧ NameHere cs word := by
  obtain ⟨hedge, _, ⟨word, opening, hsame, hopens, rfl⟩, rfl⟩ := (introduces_eq_some_iff hname).1 h
  refine ⟨by simpa using hedge, word, hsame, hname.isName hsame, opening, rest, hopens, ?_⟩
  rw [List.append_assoc]

/-- A name that stands outside a word is introduced there. -/
theorem isSome_introduces_of_nameHere {name word cs : List Char} {prev : Option Char}
    (hname : IsPlainName name) (hedge : isWordAt prev = false)
    (hsame : Recogniser.SameLetters name word) (h : NameHere cs word) :
    (introduces name prev cs).isSome := by
  obtain ⟨-, opening, rest, hopens, rfl⟩ := h
  rw [(introduces_eq_some_iff hname).2
    ⟨by simp [hedge], _, ⟨word, opening, hsame, hopens, rfl⟩, (List.append_assoc ..).symm⟩]
  rfl

/-- A text without parentheses introduces nothing. -/
theorem scan?_introduces_eq_none {name a : List Char} {prev : Option Char}
    (hname : IsPlainName name) (hparen : '(' ∉ a) : scan? (introduces name) prev a = none := by
  refine scan?_eq_none_iff.2 fun u v ha => ?_
  cases hsome : introduces name (lastChar prev u) v with
  | none => rfl
  | some tail =>
    obtain ⟨-, word, -, hhere⟩ := nameHere_of_introduces hname hsome
    obtain ⟨front, rest, rfl, -⟩ := hhere.exists_front
    exact absurd (by simp [ha]) hparen

/-- A search by name that finds nothing before a stop goes on from it. -/
theorem scan?_introduces_append {name a b : List Char} {prev : Option Char}
    (hname : IsPlainName name) (hedge : isWordAt a.getLast? = false) (hstops : Stops b)
    (h : scan? (introduces name) prev a = none) :
    scan? (introduces name) prev (a ++ b) =
      (scan? (introduces name) (lastChar prev a) b).map fun (x, y) => (a ++ x, y) := by
  refine scan?_append fun u v ha hv => ?_
  cases hsome : introduces name (lastChar prev u) (v ++ b) with
  | none => rfl
  | some tail =>
    exfalso
    obtain ⟨hstart, word, hsame, hhere⟩ := nameHere_of_introduces hname hsome
    obtain ⟨init, c, rfl⟩ := (List.eq_nil_or_concat' v).resolve_left hv
    rw [ha, List.getLast?_append_of_ne_nil u hv, List.getLast?_concat, isWordAt_some] at hedge
    rw [nameHere_append_iff List.getLast?_concat hedge hstops] at hhere
    have hfound := isSome_introduces_of_nameHere hname hstart hsame hhere
    rw [scan?_eq_none_iff.1 h u _ ha] at hfound
    cases hfound

/-! ## The next block -/

/-- A parenthesis, a comma, a name and the opening of a body, with optional white space between the
first three. -/
inductive EndsBlock : List Char → Prop where
  /-- the parts one after the other -/
  | mk {space gap word opening : List Char} (space_white : ∀ c ∈ space, isWhite c = true)
      (gap_white : ∀ c ∈ gap, isWhite c = true) (word_name : IsName word)
      (opens : OpensBody opening) :
      EndsBlock (')' :: (space ++ ',' :: (gap ++ (word ++ opening))))

/-- The recogniser of the next block takes what the grammar says. -/
theorem nextBlock_eq_some_iff {cs rest : List Char} :
    nextBlock cs = some rest ↔ ∃ taken, EndsBlock taken ∧ cs = taken ++ rest := by
  refine ⟨?_, ?_⟩
  · intro h
    simp only [nextBlock, Option.bind_eq_bind, Option.bind_eq_some_iff] at h
    obtain ⟨cs₁, hclose, cs₂, hcomma, cs₃, hword, hopen⟩ := h
    rw [Recogniser.literal_eq_some_iff] at hclose hcomma
    obtain ⟨space, hspace, hcs₁⟩ := exists_append_skipWhite cs₁
    obtain ⟨gap, hgap, hcs₂⟩ := exists_append_skipWhite cs₂
    obtain ⟨word, hne, hisWord, htail, -⟩ := Recogniser.run_eq_some_iff.1 hword
    obtain ⟨opening, hopens, rfl⟩ := openBody_eq_some_iff.1 hopen
    refine ⟨_, .mk hspace hgap ⟨hne, hisWord⟩ hopens, ?_⟩
    rw [hclose, hcs₁, hcomma, hcs₂, htail]
    simp
  · rintro ⟨_, @⟨space, gap, word, opening, hspace, hgap, hword, hopens⟩, rfl⟩
    have hcomma : ∀ c ∈ (',' :: (gap ++ (word ++ (opening ++ rest)))).head?, isWhite c = false := by
      intro c hc
      obtain rfl : ',' = c := by simpa using hc
      decide
    have hhead : ∀ c ∈ (word ++ (opening ++ rest)).head?, isWhite c = false := by
      intro c hc
      obtain ⟨hne, hisWord⟩ := hword
      cases word with
      | nil => exact absurd rfl hne
      | cons d word =>
        obtain rfl : d = c := by simpa using hc
        exact isWhite_of_isWord (hisWord d (by simp))
    have htext : ')' :: (space ++ ',' :: (gap ++ (word ++ opening))) ++ rest =
        ')' :: (space ++ ',' :: (gap ++ (word ++ (opening ++ rest)))) := by simp
    have hrun : Recogniser.word (word ++ (opening ++ rest)) = some (opening ++ rest) :=
      Recogniser.run_eq_some_iff.2
        ⟨word, hword.ne_nil, hword.isWord, rfl, hopens.isWord_head rest⟩
    rw [htext]
    simp only [nextBlock, Option.bind_eq_bind]
    rw [Recogniser.literal_eq_some_iff.2 (List.singleton_append).symm, Option.bind_some,
      skipWhite_append_eq hspace hcomma,
      Recogniser.literal_eq_some_iff.2 (List.singleton_append).symm, Option.bind_some,
      skipWhite_append_eq hgap hhead, hrun, Option.bind_some,
      openBody_eq_some_iff.2 ⟨opening, hopens, rfl⟩]

/-- The end of a block and the introduction of the next are a shape. -/
def nextBlockShape : Shape fun _ => nextBlock where
  edge _ := true
  Takes := EndsBlock
  eq_some_iff := by
    intro prev cs rest
    rw [nextBlock_eq_some_iff, eq_self, true_and]
  edge_brace := rfl
  exists_eq := by
    rintro _ @⟨space, gap, word, opening, -, -, -, hopens⟩
    obtain ⟨front, rfl, -⟩ := hopens.exists_eq_concat
    exact ⟨')', space ++ ',' :: (gap ++ (word ++ front)), by simp, by decide⟩
  brace_not_mem := by
    rintro _ @⟨space, gap, word, opening, hspace, hgap, hword, hopens⟩ c hc
    simp only [List.mem_cons, List.mem_append, not_or]
    refine ⟨?_, brace_not_mem_white hspace c hc, ?_, brace_not_mem_white hgap c hc,
      hword.brace_not_mem c hc, hopens.brace_not_mem c hc⟩
    · exact (by decide : ∀ c ∈ braces, c ≠ ')') c hc
    · exact (by decide : ∀ c ∈ braces, c ≠ ',') c hc

end StagingAudit
