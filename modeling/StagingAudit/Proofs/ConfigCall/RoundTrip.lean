import StagingAudit.ConfigCall
import StagingAudit.Proofs.Block.Introduction
import StagingAudit.Proofs.Text.Offset
import StagingAudit.Rule.Basic

/-!
# Reading a configuration call back

`configText` writes the configuration call that the rules ask for. **Reading it gives back what was
written** (`ofRaw?_configText`), whatever text follows: the call is the first of the text, its
arguments end at their only closing parenthesis, and each keyword is found where it was put.

A keyword has to end where its equals sign or the white space before it starts, so it is enough to
look at the text before each equals sign.
-/

namespace StagingAudit

/-- The configuration call with a materialization and a list of tags. -/
def configText (materialization : String) (tags : List String) : List Char :=
  ("\x7b\x7b config(" ++ "materialized='" ++ materialization ++ "', tags=" ++ quotedList tags ++
    ") \x7d\x7d").toList

/-- Whether a tag may hold a character: none that ends a tag, the list of tags or the call. -/
def isTagChar (c : Char) : Bool := !(c == ',' || c == ']' || c == ')' || isQuote c)

/-- A tag that can be written between quotation marks. -/
def IsPlainTag (tag : String) : Prop := ∀ c ∈ tag.toList, isTagChar c = true

/-! ## Quoted words -/

/-- A quotation mark is no word character. -/
theorem isWord_of_isQuote {c : Char} (h : isQuote c = true) : isWord c = false := by
  simp only [isQuote, Bool.or_eq_true, beq_iff_eq] at h
  rcases h with rfl | rfl <;> decide

/-- A quotation mark is not white space. -/
theorem isWhite_of_isQuote {c : Char} (h : isQuote c = true) : isWhite c = false := by
  simp only [isQuote, Bool.or_eq_true, beq_iff_eq] at h
  rcases h with rfl | rfl <;> decide

/-- A word is read from between two quotation marks. -/
theorem quotedWord?_append {mark : Char} (hmark : isQuote mark = true) {word : List Char}
    (hword : IsName word) (rest : List Char) :
    quotedWord? (mark :: (word ++ mark :: rest)) = some (word, rest) := by
  have hend : ∀ c ∈ (mark :: rest).head?, isWord c = false := by
    intro c hc
    obtain rfl : mark = c := by simpa using hc
    exact isWord_of_isQuote hmark
  have hempty : word.isEmpty = false := by simpa using hword.ne_nil
  rw [quotedWord?, takeWhile_append_eq hword.isWord hend, dropWhile_append_eq hword.isWord hend]
  simp [hmark, hempty]

/-! ## Elements of a list

A list is read by cutting it at the commas, and by taking white space and quotation marks off the
pieces. What is read back is what was written if no piece holds a comma and nothing is taken off
that belongs to it. `IsElement` asks for just this, so the lemmas hold of quoted tags and of
whatever else can stand in a list. -/

/-- Of a class that stands around a part, and at neither end of it, the part is left. -/
theorem trimClass_append {p : Char → Bool} {before part after : List Char}
    (hbefore : ∀ c ∈ before, p c = true) (hafter : ∀ c ∈ after, p c = true)
    (hhead : ∀ c ∈ part.head?, p c = false) (hlast : ∀ c ∈ part.getLast?, p c = false) :
    trimClass p (before ++ (part ++ after)) = part := by
  have hback : (part ++ after).reverse.dropWhile p = part.reverse := by
    rw [List.reverse_append]
    exact dropWhile_append_eq (fun c hc => hafter c (List.mem_reverse.1 hc)) (by simpa using hlast)
  cases part with
  | nil =>
    have hall : (before ++ after).dropWhile p = [] :=
      List.dropWhile_eq_nil_iff.2 fun c hc =>
        (List.mem_append.1 hc).elim (hbefore c) (hafter c)
    rw [List.nil_append, trimClass, hall]
    rfl
  | cons d part =>
    have hfront : (before ++ (d :: part ++ after)).dropWhile p = d :: part ++ after :=
      dropWhile_append_eq hbefore hhead
    rw [trimClass, hfront, dropTrailing, hback, List.reverse_reverse]

/-- An element of a list: it holds no comma and no closing bracket, and nothing of it is lost when
it is trimmed. -/
structure IsElement (part : List Char) : Prop where
  /-- there is something -/
  ne_nil : part ≠ []
  /-- no comma ends it -/
  comma_not_mem : ',' ∉ part
  /-- no bracket ends the list -/
  bracket_not_mem : ']' ∉ part
  /-- it does not start with white space -/
  isWhite_head : ∀ c ∈ part.head?, isWhite c = false
  /-- it does not end with white space -/
  isWhite_last : ∀ c ∈ part.getLast?, isWhite c = false

/-- White space before an element is trimmed. -/
theorem IsElement.trimWhite_append {part space : List Char} (h : IsElement part)
    (hspace : ∀ c ∈ space, isWhite c = true) : trimWhite (space ++ part) = part := by
  have htrim :=
    @trimClass_append isWhite space part [] hspace (by simp) h.isWhite_head h.isWhite_last
  rwa [List.append_nil] at htrim

section Between

variable {mark : Char} {inner : List Char}

/-- Nothing is added to what stands between two marks but the marks. -/
theorem not_mem_between {d : Char} (h : d ∉ inner) (hmark : d ≠ mark) :
    d ∉ mark :: (inner ++ [mark]) := by
  simp only [List.mem_cons, List.mem_append, List.not_mem_nil, or_false, not_or]
  exact ⟨hmark, h, hmark⟩

/-- The quotation marks are taken off what stands between them. -/
theorem trimClass_between (hmark : isQuote mark = true) (h : ∀ c ∈ inner, isQuote c = false) :
    trimClass isQuote (mark :: (inner ++ [mark])) = inner := by
  have hmarks : ∀ c ∈ [mark], isQuote c = true := by
    intro c hc
    obtain rfl := List.mem_singleton.1 hc
    exact hmark
  exact trimClass_append hmarks hmarks (fun c hc => h c (List.mem_of_mem_head? hc))
    fun c hc => h c (List.mem_of_mem_getLast? hc)

/-- What stands between quotation marks can be an element. -/
theorem isElement_between (hmark : isQuote mark = true) (hcomma : ',' ∉ inner)
    (hbracket : ']' ∉ inner) : IsElement (mark :: (inner ++ [mark])) where
  ne_nil := List.cons_ne_nil _ _
  comma_not_mem := not_mem_between hcomma (by rintro rfl; revert hmark; decide)
  bracket_not_mem := not_mem_between hbracket (by rintro rfl; revert hmark; decide)
  isWhite_head := by
    intro c hc
    obtain rfl : mark = c := by simpa using hc
    exact isWhite_of_isQuote hmark
  isWhite_last := by
    intro c hc
    rw [← List.cons_append, List.getLast?_concat] at hc
    obtain rfl : mark = c := by simpa using hc
    exact isWhite_of_isQuote hmark

end Between

/-- The pieces between the commas are the elements. -/
theorem map_trimWhite_splitAt {gap : List Char} (hgap : ∀ c ∈ gap, isWhite c = true)
    {parts : List (List Char)} (hne : parts ≠ []) (h : ∀ part ∈ parts, IsElement part)
    {space : List Char} (hspace : ∀ c ∈ space, isWhite c = true) :
    (splitAt ',' (space ++ (',' :: gap).intercalate parts)).map trimWhite = parts := by
  induction parts generalizing space with
  | nil => exact absurd rfl hne
  | cons part parts ih =>
    have hpart := h part (by simp)
    have hcomma : ',' ∉ space ++ part := by
      rw [List.mem_append, not_or]
      exact ⟨not_mem_of_forall hspace (by decide), hpart.comma_not_mem⟩
    cases parts with
    | nil =>
      rw [List.intercalate_singleton, splitAt_of_not_mem hcomma, List.map_singleton,
        hpart.trimWhite_append hspace]
    | cons part' parts =>
      have htail := ih (by simp) (fun x hx => h x (List.mem_cons_of_mem part hx)) hgap
      rw [List.intercalate_cons_cons, List.append_assoc, List.cons_append, ← List.append_assoc,
        splitAt_append, splitAt_of_not_mem hcomma, List.map_append, List.map_singleton,
        hpart.trimWhite_append hspace, htail]
      rfl

/-- A text is cut at its first occurrence of a character. -/
theorem cutAt?_of_not_mem {a b : List Char} {c : Char} (h : c ∉ a) :
    cutAt? [c] (a ++ c :: b) = some (a, b) := by
  have hhead : ∀ d ∈ a, ∀ cs, Recogniser.literal [c] (d :: cs) = none := by
    intro d hd cs
    apply if_neg
    rintro rfl
    exact h hd
  have hfound : Recogniser.literal [c] (c :: b) = some b := by
    rw [Recogniser.literal_eq_some_iff, List.singleton_append]
  rw [cutAt?, find?_append_of_head hhead, find?_of_some hfound]
  simp

/-- The tags of a list that has been opened, if it is closed. -/
def listedTags (inner : List Char) : List String :=
  match cutAt? [']'] inner with
  | none => []
  | some (list, _) =>
    (((splitAt ',' list).map trimWhite).filter fun t => !t.isEmpty).map fun t =>
      String.ofList (trimClass isQuote t)

/-- The tags are those of the first list of tags. -/
theorem extractTags_eq (arguments : List Char) :
    extractTags arguments =
      ((find? tagsOpening arguments).map fun (_, inner) => listedTags inner).getD [] := by
  rw [extractTags]
  cases find? tagsOpening arguments <;> rfl

/-- The tags of a list are its elements with their quotation marks taken off. -/
theorem listedTags_append {gap : List Char} (hgap : ∀ c ∈ gap, isWhite c = true)
    {parts : List (List Char)} (h : ∀ part ∈ parts, IsElement part) (after : List Char) :
    listedTags ((',' :: gap).intercalate parts ++ ']' :: after) =
      parts.map fun part => String.ofList (trimClass isQuote part) := by
  have hbracket : ']' ∉ (',' :: gap).intercalate parts := by
    refine not_mem_intercalate ?_ fun part hpart => (h part hpart).bracket_not_mem
    rw [List.mem_cons, not_or]
    exact ⟨by decide, not_mem_of_forall hgap (by decide)⟩
  rw [listedTags, cutAt?_of_not_mem hbracket]
  dsimp only
  by_cases hne : parts = []
  · subst hne
    rfl
  · have hpieces := @map_trimWhite_splitAt gap hgap parts hne h [] (by simp)
    rw [List.nil_append] at hpieces
    rw [hpieces, List.filter_eq_self.2]
    intro part hpart
    simpa using (h part hpart).ne_nil

/-! ## Lists of tags -/

/-- A tag between quotation marks. -/
def quoted (tag : String) : List Char := '\'' :: (tag.toList ++ ['\''])

/-- Tags between quotation marks, with commas between them. -/
def tagText (tags : List String) : List Char := [',', ' '].intercalate (tags.map quoted)

/-- The text of a list of tags. -/
theorem toList_quotedList (tags : List String) :
    (quotedList tags).toList = '[' :: (tagText tags ++ [']']) := by
  simp [quotedList, tagText, Function.comp_def]
  rfl

/-- The quotation marks are taken off a tag. -/
theorem trimClass_quoted {tag : String} (h : IsPlainTag tag) :
    trimClass isQuote (quoted tag) = tag.toList := by
  refine trimClass_between (by decide) fun c hc => ?_
  have htag := h c hc
  simp only [isTagChar, Bool.not_eq_true', Bool.or_eq_false_iff] at htag
  exact htag.2

/-- Tags between quotation marks have no character that neither the tags nor the marks have. -/
theorem not_mem_tagText {tags : List String} {d : Char} (h : ∀ t ∈ tags, d ∉ t.toList)
    (hmarks : d ∉ ['\'', ',', ' ']) : d ∉ tagText tags := by
  rw [List.mem_cons, not_or] at hmarks
  refine not_mem_intercalate hmarks.2 fun piece hpiece => ?_
  obtain ⟨tag, htag, rfl⟩ := List.mem_map.1 hpiece
  exact not_mem_between (h tag htag) hmarks.1

/-- A tag between quotation marks is an element. -/
theorem isElement_quoted {tag : String} (h : IsPlainTag tag) : IsElement (quoted tag) :=
  isElement_between (by decide) (not_mem_of_forall h (by decide)) (not_mem_of_forall h (by decide))

/-- Tags are read back from the first list of tags. -/
theorem extractTags_of_find? {tags : List String} (h : ∀ t ∈ tags, IsPlainTag t)
    {arguments before : List Char}
    (hfind : find? tagsOpening arguments = some (before, tagText tags ++ [']'])) :
    extractTags arguments = tags := by
  have helements : ∀ part ∈ tags.map quoted, IsElement part := by
    intro part hpart
    obtain ⟨t, ht, rfl⟩ := List.mem_map.1 hpart
    exact isElement_quoted (h t ht)
  have hread : ∀ t ∈ tags, String.ofList (trimClass isQuote (quoted t)) = t := by
    intro t ht
    rw [trimClass_quoted (h t ht), String.ofList_toList]
  rw [extractTags_eq, hfind, Option.map_some, Option.getD_some, tagText]
  dsimp only
  rw [@listedTags_append [' '] (by decide) _ helements [], List.map_map]
  exact (List.map_congr_left hread).trans (List.map_id' tags)

/-! ## Keywords

The search for a keyword tries every place, and it has to be shown that it fails at all those before
the right one. At each of them the text up to the next equals sign ends in a character that is not
white space. The keyword would have to end right there, so it would have to be that whole text
(`keyword_eq_none`). -/

/-- A keyword ends at an equals sign, or at the white space before it. -/
theorem exists_of_keyword {name a b rest : List Char} (hname : '=' ∉ name) (ha : '=' ∉ a)
    (h : keyword name (a ++ '=' :: b) = some rest) :
    ∃ space, (∀ c ∈ space, isWhite c = true) ∧ a = name ++ space := by
  simp only [keyword, Option.bind_eq_bind, Option.bind_eq_some_iff] at h
  obtain ⟨cs₁, hliteral, cs₂, hequals, -⟩ := h
  obtain ⟨space, hspace, hcs₁⟩ := exists_append_skipWhite cs₁
  rw [Recogniser.literal_eq_some_iff] at hliteral hequals
  have heq : a ++ '=' :: b = (name ++ space) ++ '=' :: cs₂ := by
    rw [hliteral, hcs₁, hequals]
    simp
  have hnot : '=' ∉ name ++ space := by
    rw [List.mem_append, not_or]
    exact ⟨hname, not_mem_of_forall hspace (by decide)⟩
  exact ⟨space, hspace, (eq_of_concat_append ha hnot heq).1⟩

/-- A keyword does not stand where something else does, up to the next equals sign. -/
theorem keyword_eq_none {name a b : List Char} {c : Char} (hname : '=' ∉ name) (ha : '=' ∉ a)
    (hlast : a.getLast? = some c) (hc : isWhite c = false) (hne : a ≠ name) :
    keyword name (a ++ '=' :: b) = none := by
  cases hsome : keyword name (a ++ '=' :: b) with
  | none => rfl
  | some rest =>
    exfalso
    obtain ⟨space, hspace, rfl⟩ := exists_of_keyword hname ha hsome
    rcases List.eq_nil_or_concat' space with rfl | ⟨init, d, rfl⟩
    · simp at hne
    · rw [← List.append_assoc, List.getLast?_concat, Option.some.injEq] at hlast
      subst hlast
      rw [hspace d (by simp)] at hc
      cases hc

/-- A keyword stands before its equals sign. -/
theorem keyword_append (name cs : List Char) :
    keyword name (name ++ '=' :: cs) = some (skipWhite cs) := by
  have hmark : skipWhite ('=' :: cs) = '=' :: cs := List.dropWhile_cons_of_neg (by decide)
  have hliteral := Recogniser.literal_eq_some_iff.2 (Eq.refl (name ++ '=' :: cs))
  have hequals := Recogniser.literal_eq_some_iff.2 (Eq.refl (['='] ++ cs))
  rw [List.singleton_append] at hequals
  simp only [keyword, Option.bind_eq_bind, hliteral, Option.bind_some, hmark, hequals]
  rfl

/-- A list of tags opens behind its keyword. -/
theorem tagsOpening_append (b : List Char) :
    tagsOpening (['t', 'a', 'g', 's'] ++ '=' :: '[' :: b) = some b := by
  have hbracket : skipWhite ('[' :: b) = '[' :: b := List.dropWhile_cons_of_neg (by decide)
  unfold tagsOpening
  rw [keyword_append, hbracket, Option.bind_eq_bind, Option.bind_some,
    Recogniser.literal_eq_some_iff, List.singleton_append]

theorem tagsOpening_of_keyword {cs : List Char} (h : keyword ['t', 'a', 'g', 's'] cs = none) :
    tagsOpening cs = none := by
  simp [tagsOpening, h]

/-- The search for tags passes over another keyword. -/
theorem find?_tagsOpening_keyword {a b : List Char} {c : Char} (ha : '=' ∉ a)
    (hlast : a.getLast? = some c) (hc : isWhite c = false) (hs : c ≠ 's') :
    find? tagsOpening (a ++ '=' :: b) =
      (find? tagsOpening b).map fun (x, y) => (a ++ ['='] ++ x, y) := by
  rw [← List.singleton_append, ← List.append_assoc]
  refine find?_append fun u v huv hv => tagsOpening_of_keyword ?_
  obtain ⟨v, rfl, rfl⟩ := exists_concat_of_append huv hv
  rw [List.append_assoc, List.singleton_append]
  by_cases hnil : v = []
  · subst hnil
    rfl
  · rw [List.getLast?_append_of_ne_nil u hnil] at hlast
    rw [List.mem_append, not_or] at ha
    refine keyword_eq_none (by decide) ha.2 hlast hc ?_
    rintro rfl
    exact hs (Option.some.inj hlast).symm

/-- The search for tags passes over a value and the separator before the keyword. -/
theorem find?_tagsOpening_value {a b : List Char} (ha : '=' ∉ a) :
    find? tagsOpening (a ++ (['t', 'a', 'g', 's'] ++ '=' :: b)) =
      (find? tagsOpening (['t', 'a', 'g', 's'] ++ '=' :: b)).map fun (x, y) => (a ++ x, y) := by
  refine find?_append fun u v huv hv => tagsOpening_of_keyword ?_
  rw [huv, List.mem_append, not_or] at ha
  rw [← List.append_assoc]
  -- a keyword that starts in the value would have to end in white space
  have hlast := List.getLast?_append_of_ne_nil v (by decide : ['t', 'a', 'g', 's'] ≠ [])
  refine keyword_eq_none (by decide) ?_ hlast (by decide) ?_
  · rw [List.mem_append, not_or]
    exact ⟨ha.2, by decide⟩
  · intro heq
    exact hv (List.append_left_eq_self.1 heq)

/-- The arguments of the call. -/
def argumentText (materialization : String) (tags : List String) : List Char :=
  "materialized='".toList ++ (materialization.toList ++ ("', tags=".toList ++
    (quotedList tags).toList))

/-- What stands before the arguments. -/
def callOpening : List Char := ['\x7b', '\x7b', ' ', 'c', 'o', 'n', 'f', 'i', 'g', '(']

/-- What stands behind the arguments. -/
def callClosing : List Char := [')', ' ', '\x7d', '\x7d']

/-- The call is its opening, its arguments and its closing. -/
theorem configText_eq (materialization : String) (tags : List String) :
    configText materialization tags =
      callOpening ++ (argumentText materialization tags ++ callClosing) := by
  have hopening : "\x7b\x7b config(".toList = callOpening := rfl
  have hclosing : ") \x7d\x7d".toList = callClosing := rfl
  rw [← hopening, ← hclosing]
  unfold configText argumentText
  simp only [String.toList_append, List.append_assoc]

/-- The arguments cut at their equals signs. -/
theorem argumentText_eq (materialization : String) (tags : List String) :
    argumentText materialization tags = "materialized".toList ++ '=' :: '\'' ::
      (materialization.toList ++ '\'' :: ',' :: ' ' ::
        (['t', 'a', 'g', 's'] ++ '=' :: '[' :: (tagText tags ++ [']']))) := by
  have hfirst : "materialized='".toList = "materialized".toList ++ ['=', '\''] := by
    decide +kernel
  have hsecond : "', tags=".toList = '\'' :: ',' :: ' ' :: (['t', 'a', 'g', 's'] ++ ['=']) := by
    decide +kernel
  have hparts := congrArg₂ (fun a b => a ++ (materialization.toList ++ (b ++
    (quotedList tags).toList))) hfirst hsecond
  refine Eq.trans hparts ?_
  simp only [toList_quotedList, List.append_assoc, List.cons_append, List.nil_append]

section Arguments

variable {materialization : String} {tags : List String}

/-- The materialization is the first argument. -/
theorem extractMaterialization_argumentText (hm : IsPlainName materialization.toList) :
    extractMaterialization (argumentText materialization tags) = some materialization := by
  have hskip : ∀ cs, skipWhite ('\'' :: cs) = '\'' :: cs := fun cs =>
    List.dropWhile_cons_of_neg (by decide)
  have hfirst : ∀ name rest, ((keyword name (name ++ '=' :: '\'' ::
      (materialization.toList ++ '\'' :: rest))).bind quotedWord?).map (·.1) =
        some materialization.toList := by
    intro name rest
    rw [keyword_append, hskip, Option.bind_some, quotedWord?_append (by decide) hm.toIsName,
      Option.map_some]
  rw [extractMaterialization, argumentText_eq, scan?_of_some (hfirst _ _), Option.map_some]
  dsimp only
  rw [String.ofList_toList]

/-- The list of tags is the first one. -/
theorem find?_tagsOpening_argumentText (hm : IsPlainName materialization.toList) :
    ∃ before, find? tagsOpening (argumentText materialization tags) =
      some (before, tagText tags ++ [']']) := by
  have hvalue : '=' ∉ '\'' :: (materialization.toList ++ ['\'', ',', ' ']) := by
    simp only [List.mem_cons, List.mem_append, List.not_mem_nil, or_false, not_or]
    exact ⟨by decide, not_mem_of_forall hm.isWord (by decide), by decide, by decide, by decide⟩
  have htext : argumentText materialization tags = "materialized".toList ++ '=' ::
      ('\'' :: (materialization.toList ++ ['\'', ',', ' ']) ++
        (['t', 'a', 'g', 's'] ++ '=' :: '[' :: (tagText tags ++ [']']))) := by
    rw [argumentText_eq]
    simp only [List.append_assoc, List.cons_append, List.nil_append]
  rw [htext, find?_tagsOpening_keyword (by decide) rfl (by decide) (by decide),
    find?_tagsOpening_value hvalue, find?_of_some (tagsOpening_append _)]
  exact ⟨_, rfl⟩

end Arguments

/-! ## The whole call -/

/-- The arguments have no character that neither the values nor the fixed parts have. -/
theorem not_mem_argumentText {materialization : String} {tags : List String} {d : Char}
    (hm : d ∉ materialization.toList) (htags : ∀ t ∈ tags, d ∉ t.toList)
    (hfixed : d ∉ "materialized='', tags=[]".toList) : d ∉ argumentText materialization tags := by
  have hpart : ∀ {part : List Char}, part ⊆ "materialized='', tags=[]".toList → d ∉ part :=
    fun hsub hmem => hfixed (hsub hmem)
  have hlist : d ∉ (quotedList tags).toList := by
    rw [toList_quotedList, ← List.singleton_append, List.mem_append, List.mem_append, not_or,
      not_or]
    exact ⟨hpart (by decide +kernel), not_mem_tagText htags (hpart (by decide +kernel)),
      hpart (by decide +kernel)⟩
  unfold argumentText
  rw [List.mem_append, List.mem_append, List.mem_append, not_or, not_or, not_or]
  exact ⟨hpart (by decide +kernel), hm, hpart (by decide +kernel), hlist⟩

/-- A call opens where it was written. -/
theorem configOpening_append (cs : List Char) : configOpening (callOpening ++ cs) = some cs := rfl

/-- A call that opens the text is on the first line. -/
theorem configLine?_append (cs : List Char) : configLine? (callOpening ++ cs) = some 1 := by
  rw [configLine?, find?_of_some (configOpening_append cs)]
  rfl

/-- The arguments of a call end at their only closing parenthesis. -/
theorem configArguments?_append {arguments : List Char} (h : ')' ∉ arguments) (rest : List Char) :
    configArguments? (callOpening ++ (arguments ++ (callClosing ++ rest))) = some arguments := by
  have hclosing : configClosing (callClosing ++ rest) = some rest := rfl
  have hhead : ∀ c ∈ arguments, ∀ cs, configClosing (c :: cs) = none := by
    intro c hc cs
    have hne : ')' ≠ c := by
      rintro rfl
      exact h hc
    simp [configClosing, Recogniser.literal, hne]
  rw [configArguments?, find?_of_some (configOpening_append _)]
  simp only [Option.bind_eq_bind, Option.bind_some]
  rw [find?_append_of_head hhead, find?_of_some hclosing]
  simp

/-- What a call declares is read from its arguments, whatever text follows. -/
theorem ofRaw?_append {arguments : List Char} (h : ')' ∉ arguments) (rest : List Char) :
    ConfigCall.ofRaw? (callOpening ++ (arguments ++ (callClosing ++ rest))) =
      some ⟨1, extractMaterialization arguments, extractTags arguments⟩ := by
  rw [ConfigCall.ofRaw?, configLine?_append, configArguments?_append h]
  rfl

/-- The call is on the first line. -/
theorem configLine?_configText (materialization : String) (tags : List String)
    (rest : List Char) : configLine? (configText materialization tags ++ rest) = some 1 := by
  rw [configText_eq, List.append_assoc, configLine?_append]

/-- **A configuration call is read back.** Whatever text follows, the call is found on the first
line, with the materialization and the tags it was written with. -/
theorem ofRaw?_configText {materialization : String} {tags : List String}
    (hm : IsPlainName materialization.toList) (htags : ∀ t ∈ tags, IsPlainTag t)
    (rest : List Char) :
    ConfigCall.ofRaw? (configText materialization tags ++ rest) =
      some ⟨1, some materialization, tags⟩ := by
  obtain ⟨before, hfind⟩ := @find?_tagsOpening_argumentText materialization tags hm
  have hparen : ')' ∉ argumentText materialization tags :=
    not_mem_argumentText (not_mem_of_forall hm.isWord (by decide))
      (fun t ht => not_mem_of_forall (htags t ht) (by decide)) (by decide)
  rw [configText_eq, List.append_assoc, List.append_assoc, ofRaw?_append hparen,
    extractMaterialization_argumentText hm, extractTags_of_find? htags hfind]

/-! ## A call that may leave the materialization out

When the call does not give a materialization, none must be found. The keyword needs an equals sign
behind it, and as long as the tags have none the only one of the call belongs to the keyword for the
tags. -/

/-- The configuration call with a list of tags, and a materialization before it if there is one. -/
def callText (materialization : Option String) (tags : List String) : List Char :=
  ("\x7b\x7b config(" ++ (materialization.elim "" fun m => "materialized='" ++ m ++ "', ") ++
    "tags=" ++ quotedList tags ++ ") \x7d\x7d").toList

/-- The tags as the only argument. -/
def tagArgument (tags : List String) : List Char :=
  ['t', 'a', 'g', 's'] ++ '=' :: '[' :: (tagText tags ++ [']'])

theorem callText_some (materialization : String) (tags : List String) :
    callText (some materialization) tags = configText materialization tags := by
  have hkeyword : "', tags=".toList = "', ".toList ++ "tags=".toList := by decide +kernel
  simp only [callText, configText, Option.elim_some, String.toList_append, hkeyword,
    List.append_assoc]

theorem callText_none (tags : List String) :
    callText none tags = callOpening ++ (tagArgument tags ++ callClosing) := by
  have hopening : "\x7b\x7b config(".toList = callOpening := rfl
  have hclosing : ") \x7d\x7d".toList = callClosing := rfl
  have hkeyword : "tags=".toList = ['t', 'a', 'g', 's', '='] := rfl
  simp only [callText, tagArgument, Option.elim_none, String.toList_append, hopening, hclosing,
    hkeyword, toList_quotedList, List.append_assoc]
  rfl

/-- A keyword needs an equals sign. -/
theorem keyword_of_not_mem {name cs : List Char} (h : '=' ∉ cs) : keyword name cs = none := by
  cases hsome : keyword name cs with
  | none => rfl
  | some rest =>
    exfalso
    simp only [keyword, Option.bind_eq_bind, Option.bind_eq_some_iff] at hsome
    obtain ⟨cs₁, hliteral, cs₂, hequals, -⟩ := hsome
    obtain ⟨space, -, hcs₁⟩ := exists_append_skipWhite cs₁
    rw [Recogniser.literal_eq_some_iff] at hliteral hequals
    apply h
    rw [hliteral, hcs₁, hequals]
    simp

/-- Tags without an equals sign declare no materialization. -/
theorem extractMaterialization_tagArgument {tags : List String}
    (htags : ∀ t ∈ tags, '=' ∉ t.toList) : extractMaterialization (tagArgument tags) = none := by
  have hlist : '=' ∉ '[' :: (tagText tags ++ [']']) := by
    simp only [List.mem_cons, List.mem_append, List.not_mem_nil, or_false, not_or]
    exact ⟨by decide, not_mem_tagText htags (by decide), by decide⟩
  have hkeyword : ∀ before rest, tagArgument tags = before ++ rest →
      keyword "materialized".toList rest = none := by
    intro before rest hsplit
    -- the only equals sign stands behind `tags`
    rcases append_split hsplit with ⟨more, rfl, hrest⟩ | ⟨more, hmore, htagsEq, rfl⟩
    · cases more with
      | nil =>
        obtain rfl : _ = rest := hrest
        rfl
      | cons c more =>
        obtain ⟨-, htail⟩ := List.cons.inj hrest
        refine keyword_of_not_mem fun hmem => hlist ?_
        rw [htail]
        exact List.mem_append_right more hmem
    · have hlast : more.getLast? = some 's' := by
        rw [← List.getLast?_append_of_ne_nil before hmore, ← htagsEq]
        rfl
      refine keyword_eq_none (by decide) ?_ hlast (by decide) ?_
      · intro hmem
        have : '=' ∈ ['t', 'a', 'g', 's'] := by
          rw [htagsEq]
          exact List.mem_append_right _ hmem
        revert this
        decide
      · rintro rfl
        have hlen := congrArg List.length htagsEq
        simp at hlen
  rw [extractMaterialization, scan?_eq_none_iff.2, Option.map_none]
  intro before rest hsplit
  rw [hkeyword before rest hsplit]
  rfl

/-- **A call is read back with or without a materialization.** Whatever text follows, the call is
found on the first line, and what it does not give is not made up from its tags. -/
theorem ofRaw?_callText {materialization : Option String} {tags : List String}
    (hm : ∀ m ∈ materialization, IsPlainName m.toList)
    (htags : ∀ t ∈ tags, IsPlainTag t ∧ '=' ∉ t.toList) (rest : List Char) :
    ConfigCall.ofRaw? (callText materialization tags ++ rest) =
      some ⟨1, materialization, tags⟩ := by
  have hplain : ∀ t ∈ tags, IsPlainTag t := fun t ht => (htags t ht).1
  cases materialization with
  | some m => rw [callText_some, ofRaw?_configText (hm m rfl) hplain]
  | none =>
    have hparen : ')' ∉ tagArgument tags := by
      simp only [tagArgument, List.mem_append, List.mem_cons, List.not_mem_nil, or_false, not_or]
      exact ⟨by decide, by decide, by decide,
        not_mem_tagText (fun t ht => not_mem_of_forall (hplain t ht) (by decide)) (by decide),
        by decide⟩
    have hfind : find? tagsOpening (tagArgument tags) = some ([], tagText tags ++ [']']) :=
      find?_of_some (tagsOpening_append _)
    rw [callText_none, List.append_assoc, List.append_assoc, ofRaw?_append hparen,
      extractMaterialization_tagArgument fun t ht => (htags t ht).2,
      extractTags_of_find? hplain hfind]

end StagingAudit
