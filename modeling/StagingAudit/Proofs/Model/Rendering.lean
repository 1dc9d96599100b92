import Mathlib.Data.List.Infix
import StagingAudit.Proofs.ConfigCall.RoundTrip
import StagingAudit.Proofs.Directive.Template
import StagingAudit.Proofs.Region.Boundary

/-!
# Rendered models

A model as the conventions want it: the configuration call, two comments that group columns, the
blocks one after the other, and the closing selection. What is between the names and the bodies is
fixed, so each search meets the blocks in the order in which they were rendered: **the
introductions are the names** (`map_word_introductionsFrom`), and the region of a name starts with
the body of the first block that has it (`exists_isolate?`).

All of this rests on what a search does at one block. It passes over a text without parentheses up
to the name, and over the name unless it is the one that is looked for.
-/

namespace StagingAudit

/-- A block as it can be rendered. -/
structure PlainBlock where
  /-- the name as it is written -/
  name : List Char
  /-- the text between the parentheses -/
  body : List Char
  /-- the name is a word in ASCII -/
  name_plain : IsPlainName name
  /-- the body has no parenthesis and no brace -/
  body_plain : ∀ c ∈ ['(', ')', '\x7b', '\x7d'], c ∉ body
  /-- the enhanced block has its timestamp and its key -/
  enhanced_marked : sameAsciiCase name "enhanced".toList = true →
    "_loaded_at".toList <:+: body ∧ ∃ c ∈ body, isWord c = false ∧ "_sk".toList ++ [c] <:+: body
  /-- the final block lists its columns -/
  final_columns : sameAsciiCase name "final".toList = true →
    body = "\n  select a, b from x\n".toList

namespace PlainBlock

/-- What stands between the name and the body. -/
def opening : List Char := " as (".toList

/-- The block with its name and its parentheses. -/
def text (b : PlainBlock) : List Char := b.name ++ (opening ++ (b.body ++ [')']))

theorem opensBody_opening : OpensBody opening :=
  @OpensBody.mk [' '] ['a', 's'] [' '] (by decide) (by decide)
    (.cons (by decide) (.cons (by decide) .nil)) (by decide)

/-- The search for a name does not run past the name of a block. -/
theorem stops_name {word : List Char} (hword : IsName word) (rest : List Char) :
    Stops (word ++ (opening ++ rest)) :=
  stops_append hword.paren_not_mem hword.inkCount_pos opensBody_opening rest

theorem paren_not_mem_body (b : PlainBlock) : '(' ∉ b.body := b.body_plain _ (by simp)

end PlainBlock

/-- What stands between the configuration call and the first block. -/
def heading : List Char := "\n-- identifiers\n-- dates\nwith ".toList

/-- What stands behind the last block. -/
def closing : List Char := "\n\nselect * from final\n".toList

/-- The tags of a model. -/
def modelTags (conventions : Conventions) (source : String) : List String :=
  [source, conventions.requiredTag, conventions.thirdTag]

/-- A model with given conventions, first tag and blocks. -/
def modelText (conventions : Conventions) (source : String) (blocks : List PlainBlock) :
    List Char :=
  configText conventions.materialization (modelTags conventions source) ++
  (heading ++ ([',', '\n', '\n'].intercalate (blocks.map PlainBlock.text) ++ closing))

/-- What stands between the body of a block and the name of the next one, if there is one. -/
def separator : List PlainBlock → List Char
  | [] => [')']
  | _ :: _ => [')', ',', '\n', '\n']

/-- The blocks and the closing selection. -/
def afterHeading : List PlainBlock → List Char
  | [] => closing
  | b :: bs => b.name ++ (PlainBlock.opening ++ (b.body ++ separator bs ++ afterHeading bs))

/-- The blocks are written one after the other. -/
theorem intercalate_text (blocks : List PlainBlock) :
    [',', '\n', '\n'].intercalate (blocks.map PlainBlock.text) ++ closing =
      afterHeading blocks := by
  cases blocks with
  | nil => rfl
  | cons b bs =>
    induction bs generalizing b with
    | nil =>
      rw [List.map_singleton, List.intercalate_singleton, PlainBlock.text, afterHeading, separator,
        afterHeading]
      simp only [List.append_assoc]
    | cons b' bs ih =>
      have htail := ih b'
      rw [List.map_cons] at htail
      rw [List.map_cons, List.map_cons, List.intercalate_cons_cons, List.append_assoc, htail,
        afterHeading.eq_2 b (b' :: bs)]
      simp only [PlainBlock.text, separator, List.append_assoc, List.cons_append, List.nil_append]

theorem modelText_eq (conventions : Conventions) (source : String) (blocks : List PlainBlock) :
    modelText conventions source blocks =
      configText conventions.materialization (modelTags conventions source) ++
      (heading ++ afterHeading blocks) := by
  rw [modelText, intercalate_text]

/-- A text that blocks may follow: it opens no parenthesis and ends where a name may start. -/
structure Precedes (a : List Char) (blocks : List PlainBlock) : Prop where
  /-- no parenthesis opens -/
  paren_not_mem : '(' ∉ a
  /-- a name may start behind it -/
  opensName : blocks ≠ [] → ∃ c, a.getLast? = some c ∧ opensName c = true

/-- Blocks may follow the body of another one and a separator. -/
theorem precedes_separator (b : PlainBlock) (bs : List PlainBlock) :
    Precedes (b.body ++ separator bs) bs := by
  refine ⟨?_, fun hne => ?_⟩
  · rw [List.mem_append, not_or]
    refine ⟨b.paren_not_mem_body, ?_⟩
    cases bs <;> simp [separator]
  · cases bs with
    | nil => exact absurd rfl hne
    | cons b' bs => exact ⟨'\n', by simp [separator], by decide⟩

/-! ## One block

Between the opening of one block and the name of the next no parenthesis is opened. An introduction
ends at one, so nothing is found up to the name, whatever words there are; and what is found at the
name depends on the name only. These lemmas are about any text without such a parenthesis, so they
serve for what stands before the first block as well as for what stands between two of them. -/

section OneBlock

variable {prev : Option Char} {a word rest : List Char} {c : Char}

/-- A search for introductions finds the name behind a text without parentheses. -/
theorem introductionsFrom_block (offset : Nat) (hlast : a.getLast? = some c)
    (hc : opensName c = true) (hparen : '(' ∉ a) (hword : IsName word) :
    ∃ offset' offset'', introductionsFrom (mayStart prev) offset
      (a ++ (word ++ (PlainBlock.opening ++ rest))) =
        ⟨offset', word⟩ :: introductionsFrom (mayStart (some '(')) offset'' rest := by
  have hstops := PlainBlock.stops_name hword rest
  rw [introductionsFrom_skip hlast (isWord_of_opensName hc) hparen hstops, mayStart_some, hc,
    introductionsFrom_name hword PlainBlock.opensBody_opening]
  exact ⟨_, _, rfl⟩

variable {name : List Char}

/-- A search by name passes over a text without parentheses up to the name of a block. -/
theorem scan?_introduces_before (hname : IsPlainName name) (hlast : a.getLast? = some c)
    (hc : isWord c = false) (hparen : '(' ∉ a) (hword : IsName word) :
    scan? (introduces name) prev (a ++ (word ++ (PlainBlock.opening ++ rest))) =
      (scan? (introduces name) (some c) (word ++ (PlainBlock.opening ++ rest))).map
        fun (x, y) => (a ++ x, y) := by
  have hedge : isWordAt a.getLast? = false := by rw [hlast, isWordAt_some, hc]
  rw [scan?_introduces_append hname hedge (PlainBlock.stops_name hword rest)
    (scan?_introduces_eq_none hname hparen), lastChar, hlast]
  rfl

/-- A search by name stops at a block that has the name. -/
theorem scan?_introduces_of_same (hname : IsPlainName name) (hc : isWord c = false)
    (hsame : Recogniser.SameLetters name word) :
    scan? (introduces name) (some c) (word ++ (PlainBlock.opening ++ rest)) = some ([], rest) := by
  refine scan?_of_some ((introduces_eq_some_iff hname).2 ⟨by simp [hc], _,
    ⟨word, _, hsame, PlainBlock.opensBody_opening, rfl⟩, ?_⟩)
  rw [List.append_assoc]

/-- A search by name passes over a block of another name. -/
theorem scan?_introduces_of_not_same (hname : IsPlainName name) (hword : IsName word)
    (hnot : ¬Recogniser.SameLetters name word) :
    scan? (introduces name) prev (word ++ (PlainBlock.opening ++ rest)) =
      (scan? (introduces name) (some '(') rest).map
        fun (x, y) => (word ++ PlainBlock.opening ++ x, y) := by
  rw [← List.append_assoc, scan?_append]
  · have hlast : word ++ PlainBlock.opening = (word ++ [' ', 'a', 's', ' ']) ++ ['('] := by
      rw [List.append_assoc]
      rfl
    rw [hlast, lastChar_concat]
  · intro u v huv hv
    cases hsome : introduces name (lastChar prev u) (v ++ rest) with
    | none => rfl
    | some tail =>
      exfalso
      obtain ⟨hedge, word', hsame, hhere⟩ := nameHere_of_introduces hname hsome
      by_cases hu : u = []
      · subst hu
        have hblock : NameHere (v ++ rest) word := by
          refine ⟨hword, _, rest, PlainBlock.opensBody_opening, ?_⟩
          rw [← List.append_assoc, huv, List.nil_append]
        exact hnot (hblock.unique hhere ▸ hsame)
      · exact not_nameHere_inside hword PlainBlock.opensBody_opening huv hu hv hedge hhere

end OneBlock

/-! ## All blocks

The search for all introductions stops at every block, the search by a name passes over those with
another one. Both are gone over by induction on the blocks, with the text before the first of them
left open: for the blocks behind the first one it is the body of that block and the separator
(`precedes_separator`). -/

/-- **The introductions behind a text are the names of the blocks that follow it.** -/
theorem map_word_introductionsFrom {blocks : List PlainBlock} {a : List Char}
    (ha : Precedes a blocks) (prev : Option Char) (offset : Nat) :
    (introductionsFrom (mayStart prev) offset (a ++ afterHeading blocks)).map (·.word) =
      blocks.map (·.name) := by
  induction blocks generalizing a prev offset with
  | nil =>
    have hlast : (a ++ closing).getLast? = some '\n' := by
      rw [List.getLast?_append_of_ne_nil a (by decide)]
      rfl
    have hparen : '(' ∉ a ++ closing := by
      rw [List.mem_append, not_or]
      exact ⟨ha.paren_not_mem, by decide⟩
    have hstops : Stops [] := by
      intro front rest hnil
      simp at hnil
    have hskip := @introductionsFrom_skip prev offset _ [] '\n' hlast (by decide) hparen hstops
    rw [List.append_nil] at hskip
    rw [afterHeading, hskip]
    rfl
  | cons b bs ih =>
    obtain ⟨c, hlast, hc⟩ := ha.opensName (by simp)
    obtain ⟨_, _, hintro⟩ := @introductionsFrom_block prev a b.name
      (b.body ++ separator bs ++ afterHeading bs) c offset hlast hc ha.paren_not_mem
      b.name_plain.toIsName
    rw [afterHeading, hintro, List.map_cons, List.map_cons, ih (precedes_separator b bs)]

/-- A search by name stops at one of the blocks that have the name, if there are any. -/
theorem exists_scan?_introduces {name : List Char} (hname : IsPlainName name)
    {blocks : List PlainBlock} (h : ∃ b ∈ blocks, Recogniser.SameLetters name b.name)
    {a : List Char} (ha : Precedes a blocks) (prev : Option Char) :
    ∃ b ∈ blocks, Recogniser.SameLetters name b.name ∧ ∃ before bs,
      scan? (introduces name) prev (a ++ afterHeading blocks) =
        some (before, b.body ++ separator bs ++ afterHeading bs) := by
  induction blocks generalizing a prev with
  | nil =>
    obtain ⟨b, hb, -⟩ := h
    cases hb
  | cons b bs ih =>
    obtain ⟨c, hlast, hc⟩ := ha.opensName (by simp)
    have hbefore := @scan?_introduces_before prev a b.name
      (b.body ++ separator bs ++ afterHeading bs) c name hname hlast (isWord_of_opensName hc)
      ha.paren_not_mem b.name_plain.toIsName
    by_cases hsame : Recogniser.SameLetters name b.name
    · rw [scan?_introduces_of_same hname (isWord_of_opensName hc) hsame] at hbefore
      exact ⟨b, by simp, hsame, _, bs, hbefore⟩
    · -- the block has another name, so one of the others has it
      have hrest : ∃ b' ∈ bs, Recogniser.SameLetters name b'.name := by
        obtain ⟨b', hb', hsame'⟩ := h
        rcases List.mem_cons.1 hb' with rfl | hb'
        · exact absurd hsame' hsame
        · exact ⟨b', hb', hsame'⟩
      obtain ⟨b', hb', hsame', before, bs', hscan⟩ := ih hrest (precedes_separator b bs) (some '(')
      rw [scan?_introduces_of_not_same hname b.name_plain.toIsName hsame, hscan] at hbefore
      exact ⟨b', List.mem_cons_of_mem b hb', hsame', _, bs', hbefore⟩

/-- A region starts with the body it was cut behind. -/
theorem exists_upToNextBlock (b : PlainBlock) (rest : List Char) :
    ∃ more, upToNextBlock (b.body ++ rest) = b.body ++ more := by
  have hhead : ∀ c ∈ b.body, ∀ cs, nextBlock (c :: cs) = none := by
    intro c hc cs
    have hne : ')' ≠ c := by
      rintro rfl
      exact b.body_plain ')' (by simp) hc
    simp [nextBlock, Recogniser.literal, hne]
  rw [upToNextBlock, find?_append_of_head hhead]
  cases find? nextBlock rest with
  | none => exact ⟨rest, rfl⟩
  | some found => exact ⟨found.1, rfl⟩

/-! ## The whole model

In front of the blocks stands the configuration call, which is blank in the stripped text. In the
raw text it is written out, and it has a parenthesis. So there the search is first taken over the
opening of the call, in which nothing is introduced (`introduces_callOpening`), and then over the
arguments as over any text without parentheses. -/

/-- Conventions and a first tag that can be written into a configuration call. -/
structure PlainConventions (conventions : Conventions) (source : String) : Prop where
  /-- the materialization is a word in ASCII -/
  materialization : IsPlainName conventions.materialization.toList
  /-- so are the tags -/
  tags : ∀ t ∈ modelTags conventions source, IsPlainName t.toList

/-- Words can be tags. -/
theorem isTagChar_of_isWord {c : Char} (h : isWord c = true) : isTagChar c = true := by
  have hmarks : ∀ d ∈ [',', ']', ')', '\'', '\x22'], isWord d = false := by decide
  have hne : ∀ d ∈ [',', ']', ')', '\'', '\x22'], c ≠ d := by
    rintro d hd rfl
    rw [hmarks c hd] at h
    cases h
  simp only [List.mem_cons, List.not_mem_nil, or_false, forall_eq_or_imp, forall_eq] at hne
  simp [isTagChar, isQuote, hne]

section Whole

variable {conventions : Conventions} {source : String} {blocks : List PlainBlock}

/-- The arguments of the call have nothing but words and the marks between them. -/
theorem PlainConventions.not_mem_argumentText (h : PlainConventions conventions source) {d : Char}
    (hd : isWord d = false) (hfixed : d ∉ "materialized='', tags=[]".toList) :
    d ∉ argumentText conventions.materialization (modelTags conventions source) :=
  StagingAudit.not_mem_argumentText (not_mem_of_forall h.materialization.isWord hd)
    (fun t ht => not_mem_of_forall (h.tags t ht).isWord hd) hfixed

/-- The blocks of a model have no braces. -/
theorem brace_not_mem_afterHeading (blocks : List PlainBlock) :
    ∀ c ∈ braces, c ∉ afterHeading blocks := by
  intro c hc
  induction blocks with
  | nil => exact (by decide : ∀ c ∈ braces, c ∉ closing) c hc
  | cons b bs ih =>
    have hbody : c ∉ b.body :=
      b.body_plain c ((by decide : braces ⊆ ['(', ')', '\x7b', '\x7d']) hc)
    have hseparator : c ∉ separator bs := by
      cases bs with
      | nil => exact (by decide : ∀ c ∈ braces, c ∉ [')']) c hc
      | cons b' bs => exact (by decide : ∀ c ∈ braces, c ∉ [')', ',', '\n', '\n']) c hc
    simp only [afterHeading, List.mem_append, not_or]
    exact ⟨b.name_plain.brace_not_mem c hc, PlainBlock.opensBody_opening.brace_not_mem c hc,
      ⟨hbody, hseparator⟩, ih⟩

/-- Stripping blanks the configuration call and nothing else. -/
theorem stripDirectives_modelText (h : PlainConventions conventions source)
    (blocks : List PlainBlock) :
    stripDirectives (modelText conventions source blocks) =
      blank (configText conventions.materialization (modelTags conventions source)) ++ heading ++
        afterHeading blocks := by
  have hrest : ∀ c ∈ braces, c ∉ heading ++ afterHeading blocks := by
    intro c hc
    rw [List.mem_append, not_or]
    exact ⟨(by decide : ∀ c ∈ braces, c ∉ heading) c hc, brace_not_mem_afterHeading blocks c hc⟩
  have hinner : ∀ c ∈ braces, c ∉ ['c', 'o', 'n', 'f', 'i', 'g', '('] ++
      (argumentText conventions.materialization (modelTags conventions source) ++ [')', ' ']) := by
    intro c hc
    simp only [List.mem_append, not_or]
    refine ⟨?_, h.not_mem_argumentText ?_ ?_, ?_⟩
    · exact (by decide : ∀ c ∈ braces, c ∉ ['c', 'o', 'n', 'f', 'i', 'g', '(']) c hc
    · exact (by decide : ∀ c ∈ braces, isWord c = false) c hc
    · exact (by decide : ∀ c ∈ braces, c ∉ "materialized='', tags=[]".toList) c hc
    · exact (by decide : ∀ c ∈ braces, c ∉ [')', ' ']) c hc
  have hstrip := stripDirectives_raw (.goesOn ⟨[], by simp⟩
    ⟨.expression, ' ' :: _, fun c hc => List.not_mem_cons_of_ne_of_not_mem
      ((by decide : ∀ c ∈ braces, c ≠ ' ') c hc) (hinner c hc), by simp⟩ (.ends ⟨_, hrest⟩))
  rw [modelText_eq, configText_eq]
  simpa [Template.raw, Template.blanked, Template.writtenAs, PlainDirective.text, Directive.opener,
    Directive.closer, callOpening, callClosing] using hstrip

/-- Blocks may follow the blanked call and the heading. -/
theorem precedes_heading (call : List Char) (blocks : List PlainBlock) :
    Precedes (blank call ++ heading) blocks := by
  have hblank : ∀ c ∈ blank call, isBlank c = true := fun c hc => isBlank_of_mem_blank hc
  refine ⟨?_, fun _ => ⟨' ', ?_, by decide⟩⟩
  · rw [List.mem_append, not_or]
    exact ⟨not_mem_of_forall hblank (by decide), by decide⟩
  · rw [List.getLast?_append_of_ne_nil _ (by decide)]
    rfl

/-- A word is reserved when its lower case is. -/
theorem isReserved_iff (word : List Char) :
    isReserved word = true ↔ String.ofList (word.map Char.toLower) ∈ reservedWords := by
  have hlower : ∀ r ∈ reservedWords, r.toList.map Char.toLower = r.toList := by decide +kernel
  rw [isReserved, List.any_eq_true]
  refine ⟨?_, ?_⟩
  · rintro ⟨r, hr, hsame⟩
    rw [sameAsciiCase, beq_iff_eq, hlower r hr] at hsame
    rwa [← hsame, String.ofList_toList]
  · intro hmem
    refine ⟨_, hmem, ?_⟩
    have heq := hlower _ hmem
    rw [String.toList_ofList] at heq
    rw [sameAsciiCase, beq_iff_eq, String.toList_ofList, heq]

/-- The names that a list of blocks declares: in lower case, without the reserved words. -/
def declaredNames (blocks : List PlainBlock) : List String :=
  (blocks.map fun b => String.ofList (b.name.map Char.toLower)).filter fun n => n ∉ reservedWords

/-- **The blocks of a rendered model are those it was rendered from.** -/
theorem map_name_findBlocks (h : PlainConventions conventions source) (blocks : List PlainBlock) :
    (findBlocks (stripDirectives (modelText conventions source blocks))).map (·.name) =
      declaredNames blocks := by
  have hwords : (introductions (stripDirectives (modelText conventions source blocks))).map
      (·.word) = blocks.map (·.name) := by
    rw [stripDirectives_modelText h]
    exact map_word_introductionsFrom (precedes_heading _ blocks) none 0
  have hlower : ∀ b : PlainBlock, lowerCase b.name = b.name.map Char.toLower :=
    fun b => lowerCase_of_ascii b.name_plain.isAscii
  have hreserved : ∀ word, (!isReserved word) =
      decide (String.ofList (word.map Char.toLower) ∉ reservedWords) := by
    intro word
    rw [Bool.eq_iff_iff, Bool.not_eq_true', ← Bool.not_eq_true, isReserved_iff, decide_eq_true_iff]
  calc (findBlocks (stripDirectives (modelText conventions source blocks))).map (·.name)
      = (((introductions (stripDirectives (modelText conventions source blocks))).map
          (·.word)).filter fun w => !isReserved w).map fun w => String.ofList (lowerCase w) := by
        rw [findBlocks, introductions_blankLeadingWith, List.filter_map, List.map_map, List.map_map]
        rfl
    _ = ((blocks.map (·.name)).filter fun w => !isReserved w).map
          fun w => String.ofList (lowerCase w) := by rw [hwords]
    _ = declaredNames blocks := by
        rw [declaredNames, List.filter_map, List.filter_map, List.map_map]
        simp only [Function.comp_def, hlower, hreserved]

/-- The region of a name in a text starts with the body of a block that has the name. -/
theorem exists_isolate? {name text : List Char} {b : PlainBlock} {before rest : List Char}
    (h : scan? (introduces name) none text = some (before, b.body ++ rest)) :
    ∃ more, isolate? name text = some (b.body ++ more) := by
  obtain ⟨more, hmore⟩ := exists_upToNextBlock b rest
  exact ⟨more, by rw [isolate?, fromBody?, h, Option.map_some, Option.map_some, hmore]⟩

/-- In the stripped text the region of a name starts with the body of a block that has it. -/
theorem exists_isolate?_stripped (h : PlainConventions conventions source) {name : List Char}
    (hname : IsPlainName name) (hblock : ∃ b ∈ blocks, Recogniser.SameLetters name b.name) :
    ∃ b ∈ blocks, Recogniser.SameLetters name b.name ∧ ∃ more,
      isolate? name (stripDirectives (modelText conventions source blocks)) =
        some (b.body ++ more) := by
  obtain ⟨b, hb, hsame, before, bs, hscan⟩ :=
    exists_scan?_introduces hname hblock (precedes_heading
      (configText conventions.materialization (modelTags conventions source)) blocks) none
  rw [List.append_assoc b.body, ← stripDirectives_modelText h] at hscan
  exact ⟨b, hb, hsame, exists_isolate? hscan⟩

/-- Blocks may follow the arguments of the call and the heading. -/
theorem precedes_arguments (h : PlainConventions conventions source) :
    Precedes (argumentText conventions.materialization (modelTags conventions source) ++
      callClosing ++ heading) blocks := by
  refine ⟨?_, fun _ => ⟨' ', ?_, by decide⟩⟩
  · simp only [List.mem_append, not_or]
    exact ⟨⟨h.not_mem_argumentText (by decide) (by decide), by decide⟩, by decide⟩
  · rw [List.getLast?_append_of_ne_nil _ (by decide)]
    rfl

/-- No block is introduced in the opening of the call. -/
theorem introduces_callOpening {name u v rest : List Char} (hname : IsPlainName name)
    (huv : callOpening = u ++ v) (hv : v ≠ []) :
    introduces name (lastChar none u) (v ++ rest) = none := by
  -- a place there is outside a word, or the word it starts ends at the parenthesis
  have hplaces : ∀ v ∈ callOpening.tails, v.head?.any isWord = true →
      v.dropWhile isWord = ['('] := by decide
  have hmem : v ∈ callOpening.tails := (List.mem_tails ..).2 ⟨u, huv.symm⟩
  cases hsome : introduces name (lastChar none u) (v ++ rest) with
  | none => rfl
  | some tail =>
    exfalso
    obtain ⟨-, word, -, hhere⟩ := nameHere_of_introduces hname hsome
    cases v with
    | nil => exact hv rfl
    | cons c v =>
      rw [List.cons_append] at hhere
      obtain ⟨hc, hopen, -⟩ := nameHere_cons_iff.1 hhere
      have hdrop := hplaces _ hmem hc
      rw [List.dropWhile_cons_of_pos hc] at hdrop
      rw [List.dropWhile_append, hdrop] at hopen
      cases hopen

/-- The same is true in the raw text. -/
theorem exists_isolate?_raw (h : PlainConventions conventions source) {name : List Char}
    (hname : IsPlainName name) (hblock : ∃ b ∈ blocks, Recogniser.SameLetters name b.name) :
    ∃ b ∈ blocks, Recogniser.SameLetters name b.name ∧ ∃ more,
      isolate? name (modelText conventions source blocks) = some (b.body ++ more) := by
  -- the call has a parenthesis, so the search is taken over its opening by itself
  obtain ⟨b, hb, hsame, before, bs, hscan⟩ :=
    exists_scan?_introduces hname hblock (precedes_arguments h) (some '(')
  have hcall := @scan?_append _ (introduces name) none callOpening
    (argumentText conventions.materialization (modelTags conventions source) ++ callClosing ++
      heading ++ afterHeading blocks) fun u v huv hv => introduces_callOpening hname huv hv
  have hlast : lastChar none callOpening = some '(' := rfl
  rw [hlast, hscan, List.append_assoc b.body] at hcall
  have htext : modelText conventions source blocks = callOpening ++
      (argumentText conventions.materialization (modelTags conventions source) ++ callClosing ++
        heading ++ afterHeading blocks) := by
    rw [modelText_eq, configText_eq]
    simp only [List.append_assoc]
  rw [← htext] at hcall
  exact ⟨b, hb, hsame, exists_isolate? hcall⟩

end Whole

end StagingAudit
