import Mathlib.Data.List.Nodup
import StagingAudit.Proofs.ConfigCall.RoundTrip

/-!
# Keywords that end alike

The arguments of a call are looked up by their keywords, and a keyword is searched for as a text:
nothing asks whether a word starts where it does. So a search for `tags` also stops inside
`policy_tags`, and takes what it finds there if that is a list. `extractTags_bindingsText` and
`extractMaterialization_bindingsText` say what is found for any list of arguments: the value of
the first one whose keyword *ends* in the name and whose value is of the kind that is wanted.
**That is what the name itself is bound to exactly when no other keyword comes first, or its value
is the same** (`keywordLookups_iff`).
-/

namespace StagingAudit

/-! ## Arguments -/

/-- A word between two quotation marks. -/
structure QuotedWord where
  /-- the mark on either side -/
  mark : Char
  /-- the word -/
  word : String
  /-- either quotation mark will do -/
  isQuote_mark : isQuote mark = true
  /-- there is a word -/
  isName_word : IsName word.toList

/-- What a keyword can be bound to. -/
inductive BoundValue where
  /-- a quoted word -/
  | word (w : QuotedWord)
  /-- a list of quoted words -/
  | list (ws : List QuotedWord)

/-- A keyword and what it is bound to. -/
structure Binding where
  /-- the keyword -/
  key : String
  /-- the value -/
  value : BoundValue
  /-- the keyword is an identifier -/
  isName_key : IsName key.toList

/-- The word with its marks. -/
def QuotedWord.text (w : QuotedWord) : List Char := w.mark :: (w.word.toList ++ [w.mark])

/-- The text of a value, with a gap behind the commas of a list. -/
def BoundValue.text (gap : List Char) : BoundValue → List Char
  | word w => w.text
  | list ws => '[' :: ((',' :: gap).intercalate (ws.map QuotedWord.text) ++ [']'])

/-- The text of an argument. -/
def Binding.text (gap : List Char) (a : Binding) : List Char :=
  a.key.toList ++ '=' :: a.value.text gap

/-- The text of a list of arguments, with a gap behind the commas. -/
def bindingsText (gap : List Char) (args : List Binding) : List Char :=
  (',' :: gap).intercalate (args.map (Binding.text gap))

/-- The word, when the value is one. -/
def BoundValue.word? : BoundValue → Option String
  | word w => some w.word
  | list _ => none

/-- The words of the list, when the value is one. -/
def BoundValue.words? : BoundValue → Option (List String)
  | word _ => none
  | list ws => some (ws.map (·.word))

section Text

variable {gap : List Char}

/-- A quoted word holds its marks and a word. -/
theorem QuotedWord.not_mem_text (w : QuotedWord) {c : Char} (hword : isWord c = false)
    (hquote : isQuote c = false) : c ∉ w.text := by
  refine not_mem_between (not_mem_of_forall w.isName_word.isWord hword) ?_
  rintro rfl
  rw [w.isQuote_mark] at hquote
  cases hquote

/-- A quoted word can stand in a list. -/
theorem QuotedWord.isElement_text (w : QuotedWord) : IsElement w.text :=
  isElement_between w.isQuote_mark (not_mem_of_forall w.isName_word.isWord (by decide))
    (not_mem_of_forall w.isName_word.isWord (by decide))

/-- The marks are taken off a quoted word. -/
theorem QuotedWord.trimClass_text (w : QuotedWord) : trimClass isQuote w.text = w.word.toList := by
  refine trimClass_between w.isQuote_mark fun c hc => ?_
  rw [← Bool.not_eq_true]
  intro hquote
  have hword := w.isName_word.isWord c hc
  rw [isWord_of_isQuote hquote] at hword
  cases hword

/-- A value starts with a sign. -/
theorem BoundValue.skipWhite_text (v : BoundValue) (after : List Char) :
    skipWhite (v.text gap ++ after) = v.text gap ++ after := by
  cases v with
  | word w =>
    have hmark := isWhite_of_isQuote w.isQuote_mark
    exact List.dropWhile_cons_of_neg (by simp [hmark])
  | list ws => exact List.dropWhile_cons_of_neg (by decide)

/-- No value holds an equals sign. -/
theorem BoundValue.equals_not_mem_text (hgap : ∀ c ∈ gap, isWhite c = true)
    (v : BoundValue) : '=' ∉ v.text gap := by
  have hword : ∀ w : QuotedWord, '=' ∉ w.text := fun w => w.not_mem_text (by decide) (by decide)
  cases v with
  | word w => exact hword w
  | list ws =>
    have hsep : '=' ∉ ',' :: gap := by
      rw [List.mem_cons, not_or]
      exact ⟨by decide, not_mem_of_forall hgap (by decide)⟩
    have hlist : '=' ∉ (',' :: gap).intercalate (ws.map QuotedWord.text) := by
      refine not_mem_intercalate hsep fun part hpart => ?_
      obtain ⟨w, -, rfl⟩ := List.mem_map.1 hpart
      exact hword w
    simp only [BoundValue.text, List.mem_cons, List.mem_append, List.not_mem_nil, or_false,
      not_or]
    exact ⟨by decide, hlist, by decide⟩

end Text

/-! ## Searches for a keyword

The two lookups differ in what they read behind the equals sign and in nothing else, so `seek`
stands for both. It asks at every place, also inside words and values. What it finds is decided by
the words in front of equals signs: neither a value nor a separator holds one, and a keyword has to
reach up to the next. Of all places in front of an equals sign, only the one where the rest of the
word is the name will do. -/

section Seek

variable {α : Type} {name : List Char} {value : List Char → Option α}

/-- What is read behind the first occurrence of a keyword behind which it can be read. -/
def seek (name : List Char) (value : List Char → Option α) (cs : List Char) : Option α :=
  (scan? (fun _ cs => (keyword name cs).bind value) none cs).map (·.2)

/-- The keyword is either the first thing in the text or behind its first character. -/
theorem seek_cons (c : Char) (cs : List Char) :
    seek name value (c :: cs) = ((keyword name (c :: cs)).bind value).or (seek name value cs) := by
  have hahead : ∀ prev, scan? (fun _ cs => (keyword name cs).bind value) prev cs =
      scan? (fun _ cs => (keyword name cs).bind value) none cs := by
    intro prev
    cases cs <;> rfl
  rw [seek, scan?, hahead]
  cases (keyword name (c :: cs)).bind value with
  | some x => rfl
  | none => simp [seek, Function.comp_def]

/-- Nothing is read where there is no equals sign. -/
theorem seek_of_not_mem {cs : List Char} (h : '=' ∉ cs) : seek name value cs = none := by
  rw [seek, scan?_eq_none_iff.2, Option.map_none]
  rintro before rest rfl
  rw [List.mem_append, not_or] at h
  rw [keyword_of_not_mem h.2, Option.bind_none]

/-- A search goes on behind a part where the keyword stands nowhere. -/
theorem seek_append {a b : List Char}
    (h : ∀ u v, a = u ++ v → v ≠ [] → keyword name (v ++ b) = none) :
    seek name value (a ++ b) = seek name value b := by
  induction a with
  | nil => rfl
  | cons c a ih =>
    have hhead := h [] (c :: a) rfl (List.cons_ne_nil c a)
    rw [List.cons_append] at hhead
    rw [List.cons_append, seek_cons, hhead, Option.bind_none, Option.none_or]
    exact ih fun u v huv hv => h (c :: u) v (by rw [huv, List.cons_append]) hv

/-- At the start of a word that an equals sign ends, the keyword stands when it is that word. -/
theorem keyword_word (hname : IsName name) {word : List Char} (hword : IsName word)
    (rest : List Char) :
    keyword name (word ++ '=' :: rest) = if word = name then some (skipWhite rest) else none := by
  have hequals : ∀ {w : List Char}, IsName w → '=' ∉ w := fun hw =>
    not_mem_of_forall hw.isWord (by decide)
  split
  · next heq => rw [heq, keyword_append]
  · next hne =>
    have hlast := List.getLast?_eq_some_getLast hword.ne_nil
    have hwhite := isWhite_of_isWord (hword.isWord _ (List.getLast_mem hword.ne_nil))
    exact keyword_eq_none (hequals hname) (hequals hword) hlast hwhite hne

/-- **A keyword is found at every word that ends in it.** -/
theorem seek_word (hname : IsName name) {word : List Char}
    (hword : ∀ c ∈ word, isWord c = true) (rest : List Char) :
    seek name value (word ++ '=' :: rest) =
      if name <:+ word then (value (skipWhite rest)).or (seek name value rest)
      else seek name value rest := by
  induction word with
  | nil =>
    have hequals : keyword name ('=' :: rest) = none := by
      have hnot : '=' ∉ name := not_mem_of_forall hname.isWord (by decide)
      cases hsome : keyword name ('=' :: rest) with
      | none => rfl
      | some after =>
        obtain ⟨space, -, hnil⟩ := @exists_of_keyword name [] rest after hnot (by simp) hsome
        exact absurd (List.append_eq_nil_iff.1 hnil.symm).1 hname.ne_nil
    rw [if_neg (by simpa using hname.ne_nil), List.nil_append, seek_cons, hequals,
      Option.bind_none, Option.none_or]
  | cons c word ih =>
    have hrest := ih fun d hd => hword d (List.mem_cons_of_mem c hd)
    have hhere := keyword_word hname ⟨List.cons_ne_nil c word, hword⟩ rest
    rw [List.cons_append] at hhere
    rw [List.cons_append, seek_cons, hhere, hrest]
    by_cases heq : c :: word = name
    · -- the rest of the word is too short
      have hshort : ¬name <:+ word := by
        intro hsuffix
        have hlen := hsuffix.length_le
        rw [← heq, List.length_cons] at hlen
        omega
      have hwhole : name <:+ c :: word := heq ▸ List.suffix_refl name
      rw [if_pos heq, if_neg hshort, if_pos hwhole, Option.bind_some]
    · have hiff : name <:+ c :: word ↔ name <:+ word := by
        rw [List.suffix_cons_iff, or_iff_right (Ne.symm heq)]
      simp only [if_neg heq, hiff, Option.bind_none, Option.none_or]

/-- It is not found across the separator before a word. -/
theorem seek_separator (hname : IsName name) {gap : List Char}
    (hgap : ∀ c ∈ gap, isWhite c = true) {front word : List Char} (hfront : '=' ∉ front)
    (hword : IsName word) (rest : List Char) :
    seek name value (front ++ ',' :: (gap ++ (word ++ '=' :: rest))) =
      seek name value (word ++ '=' :: rest) := by
  have hsign : ∀ c ∈ ',' :: gap, isWord c = false ∧ c ≠ '=' := by
    intro c hc
    rcases List.mem_cons.1 hc with rfl | hc
    · decide
    · refine ⟨isWord_of_isWhite (hgap c hc), ?_⟩
      rintro rfl
      exact absurd (hgap _ hc) (by decide)
  obtain hnil | ⟨init, sign, hsep⟩ := List.eq_nil_or_concat' (',' :: gap)
  · cases hnil
  have hsplit : front ++ ',' :: (gap ++ (word ++ '=' :: rest)) =
      (front ++ (',' :: gap)) ++ (word ++ '=' :: rest) := by simp
  rw [hsplit]
  refine seek_append fun u v huv hv => ?_
  have hequals : '=' ∉ v ++ word := by
    have hall : '=' ∉ front ++ (',' :: gap) := by
      rw [List.mem_append, not_or]
      exact ⟨hfront, fun hmem => (hsign _ hmem).2 rfl⟩
    rw [huv, List.mem_append, not_or] at hall
    rw [List.mem_append, not_or]
    exact ⟨hall.2, not_mem_of_forall hword.isWord (by decide)⟩
  have hlast := List.getLast?_append_of_ne_nil v hword.ne_nil
  rw [List.getLast?_eq_some_getLast hword.ne_nil] at hlast
  have hwhite := isWhite_of_isWord (hword.isWord _ (List.getLast_mem hword.ne_nil))
  rw [← List.append_assoc]
  refine keyword_eq_none (not_mem_of_forall hname.isWord (by decide)) hequals hlast hwhite ?_
  rintro rfl
  -- the keyword would hold the sign that ends the separator
  rw [hsep, ← List.append_assoc] at huv
  obtain ⟨w, rfl, -⟩ := exists_concat_of_append huv hv
  have hnot := (hsign sign (by rw [hsep]; simp)).1
  rw [hname.isWord sign (by simp)] at hnot
  cases hnot

end Seek

/-! ## What is found

The search goes from one argument to the next. It stops at an argument whose keyword ends in the
name, if the value can be read; else it goes on behind the value, also when the keyword was the
right one. This is `find?` for a property of the argument, by an induction along the list in which
the values and the separators are passed over. -/

/-- The text of a list of bindings, one after the other. -/
theorem bindingsText_cons_cons (gap : List Char) (b next : Binding) (later : List Binding) :
    bindingsText gap (b :: next :: later) =
      b.key.toList ++ '=' :: (b.value.text gap ++
        ',' :: (gap ++ bindingsText gap (next :: later))) := by
  simp [bindingsText, Binding.text, List.intercalate_cons_cons]

theorem bindingsText_singleton (gap : List Char) (b : Binding) :
    bindingsText gap [b] = b.key.toList ++ '=' :: (b.value.text gap ++ []) := by
  simp [bindingsText, Binding.text]

/-- The first binding that a search for a name takes: its keyword ends in the name, and its value is
of the kind that is read. -/
def taken? {β : Type} (name : String) (read : BoundValue → Option β) (bs : List Binding) :
    Option Binding :=
  bs.find? fun b => decide (name.toList <:+ b.key.toList) && (read b.value).isSome

/-- A text of bindings starts with the keyword of the first one. -/
theorem exists_bindingsText_cons (gap : List Char) (b : Binding) (bs : List Binding) :
    ∃ rest, bindingsText gap (b :: bs) = b.key.toList ++ '=' :: rest := by
  cases bs with
  | nil => exact ⟨_, bindingsText_singleton gap b⟩
  | cons next later => exact ⟨_, bindingsText_cons_cons gap b next later⟩

/-- **A search takes the first binding that will do.** -/
theorem seek_bindingsText {α β : Type} {gap : List Char} (hgap : ∀ c ∈ gap, isWhite c = true)
    {name : String} (hname : IsName name.toList) {value : List Char → Option α} {finish : α → β}
    {read : BoundValue → Option β}
    (hread : ∀ (v : BoundValue) after, (value (v.text gap ++ after)).map finish = read v)
    (bs : List Binding) :
    (seek name.toList value (bindingsText gap bs)).map finish =
      (taken? name read bs).bind fun b => read b.value := by
  induction bs with
  | nil => rw [bindingsText, List.map_nil, List.intercalate_nil, seek_of_not_mem (by simp)]; rfl
  | cons b bs ih =>
    obtain ⟨after, htext, hafter⟩ : ∃ after,
        bindingsText gap (b :: bs) = b.key.toList ++ '=' :: (b.value.text gap ++ after) ∧
        seek name.toList value (b.value.text gap ++ after) =
          seek name.toList value (bindingsText gap bs) := by
      have hvalue := b.value.equals_not_mem_text hgap
      cases bs with
      | nil =>
        refine ⟨[], bindingsText_singleton gap b, ?_⟩
        rw [List.append_nil, seek_of_not_mem hvalue, bindingsText, List.map_nil,
          List.intercalate_nil, seek_of_not_mem (by simp)]
      | cons next later =>
        obtain ⟨rest, hrest⟩ := exists_bindingsText_cons gap next later
        refine ⟨_, bindingsText_cons_cons gap b next later, ?_⟩
        rw [hrest]
        exact seek_separator hname hgap hvalue next.isName_key rest
    rw [htext, seek_word hname b.isName_key.isWord, b.value.skipWhite_text, hafter, taken?,
      List.find?_cons]
    by_cases hsuffix : name.toList <:+ b.key.toList
    · rw [if_pos hsuffix, Option.map_or, hread, ih, decide_eq_true hsuffix, Bool.true_and]
      cases hvalue : read b.value with
      | none => rfl
      | some x => simp [hvalue]
    · rw [if_neg hsuffix, ih, decide_eq_false hsuffix, Bool.false_and]
      rfl

/-! ## Tags and materialization -/

section Lookups

variable {gap : List Char}

theorem isName_tags : IsName "tags".toList := ⟨by decide, by decide⟩

theorem isName_materialized : IsName "materialized".toList := ⟨by decide, by decide⟩

/-- The first list is taken whose keyword ends in `tags`. -/
theorem extractTags_bindingsText (hgap : ∀ c ∈ gap, isWhite c = true) (bs : List Binding) :
    extractTags (bindingsText gap bs) =
      ((taken? "tags" BoundValue.words? bs).bind fun b => b.value.words?).getD [] := by
  have hread : ∀ (v : BoundValue) after,
      (Recogniser.literal ['['] (v.text gap ++ after)).map listedTags = v.words? := by
    intro v after
    cases v with
    | word w =>
      have hbracket : '[' ≠ w.mark := by
        intro heq
        have hmark := w.isQuote_mark
        rw [← heq] at hmark
        revert hmark
        decide
      exact congrArg (Option.map listedTags) (if_neg hbracket)
    | list ws =>
      have helements : ∀ part ∈ ws.map QuotedWord.text, IsElement part := by
        intro part hpart
        obtain ⟨w, -, rfl⟩ := List.mem_map.1 hpart
        exact w.isElement_text
      have hopen : Recogniser.literal ['['] ((BoundValue.list ws).text gap ++ after) =
          some ((',' :: gap).intercalate (ws.map QuotedWord.text) ++ ']' :: after) := by
        rw [Recogniser.literal_eq_some_iff]
        simp [BoundValue.text]
      rw [hopen, Option.map_some, listedTags_append hgap helements, List.map_map]
      simp [BoundValue.words?, Function.comp_def, QuotedWord.trimClass_text]
  have hseek := seek_bindingsText hgap isName_tags hread bs
  rw [extractTags_eq, ← hseek, seek, Option.map_map]
  rfl

/-- The first quoted word is taken whose keyword ends in `materialized`. -/
theorem extractMaterialization_bindingsText (hgap : ∀ c ∈ gap, isWhite c = true)
    (bs : List Binding) :
    extractMaterialization (bindingsText gap bs) =
      (taken? "materialized" BoundValue.word? bs).bind fun b => b.value.word? := by
  have hread : ∀ (v : BoundValue) after,
      ((quotedWord? (v.text gap ++ after)).map (·.1)).map String.ofList = v.word? := by
    intro v after
    cases v with
    | word w =>
      have htext : (BoundValue.word w).text gap ++ after =
          w.mark :: (w.word.toList ++ w.mark :: after) := by
        simp [BoundValue.text, QuotedWord.text]
      rw [htext, quotedWord?_append w.isQuote_mark w.isName_word]
      simp [BoundValue.word?]
    | list ws =>
      have htext : (BoundValue.list ws).text gap ++ after =
          '[' :: ((',' :: gap).intercalate (ws.map QuotedWord.text) ++ ']' :: after) := by
        simp [BoundValue.text]
      have hquote : isQuote '[' = false := by decide
      rw [htext, quotedWord?]
      split <;> simp [hquote, BoundValue.word?]
  have hseek := @seek_bindingsText _ _ gap hgap "materialized" isName_materialized
    (fun cs => (quotedWord? cs).map (·.1)) String.ofList BoundValue.word? hread bs
  rw [← hseek, extractMaterialization, seek, Option.map_map]
  simp only [Option.map_bind]
  rfl

/-! ## Whole keywords

A lookup by whole keywords is `find?` for the name. The search is `find?` for a longer list of
keywords, and asks for a value of the right kind besides. When keywords are distinct at most one of
them is the name, so the answers are the same exactly when the search stops at this one or at
another one that has the same to say. -/

/-- What a keyword is bound to, if the value is of the kind that is read. -/
def bound? {β : Type} (name : String) (read : BoundValue → Option β) (bs : List Binding) :
    Option β :=
  (bs.find? fun b => b.key = name).bind fun b => read b.value

/-- The tags that are bound to the keyword for tags; none if there is no such list. -/
def boundTags (bs : List Binding) : List String := (bound? "tags" BoundValue.words? bs).getD []

/-- The word that is bound to the keyword for the materialization. -/
def boundMaterialization (bs : List Binding) : Option String :=
  bound? "materialized" BoundValue.word? bs

/-- With distinct keywords a binding is the first one of its keyword. -/
theorem find?_key_eq {bs : List Binding} (hdistinct : (bs.map (·.key)).Nodup) {b : Binding}
    (hb : b ∈ bs) : (bs.find? fun b' => b'.key = b.key) = some b := by
  obtain ⟨found, hfound⟩ : ∃ found, (bs.find? fun b' => b'.key = b.key) = some found :=
    Option.isSome_iff_exists.1 (List.find?_isSome.2 ⟨b, hb, by simp⟩)
  have hkey : found.key = b.key := by simpa using List.find?_some hfound
  rw [hfound, List.inj_on_of_nodup_map hdistinct (List.mem_of_find?_eq_some hfound) hb hkey]

section Bound

variable {β : Type} {name : String} {read : BoundValue → Option β} {bs : List Binding}

/-- With distinct keywords a name is bound to the value that stands with it. -/
theorem bound?_eq_some_iff (hdistinct : (bs.map (·.key)).Nodup) {x : β} :
    bound? name read bs = some x ↔ ∃ b ∈ bs, b.key = name ∧ read b.value = some x := by
  rw [bound?, Option.bind_eq_some_iff]
  constructor
  · rintro ⟨b, hfind, hread⟩
    exact ⟨b, List.mem_of_find?_eq_some hfind, by simpa using List.find?_some hfind, hread⟩
  · rintro ⟨b, hb, rfl, hread⟩
    exact ⟨b, find?_key_eq hdistinct hb, hread⟩

/-- A search that takes nothing has nothing to find. -/
theorem bound?_eq_none (hdistinct : (bs.map (·.key)).Nodup) (h : taken? name read bs = none) :
    bound? name read bs = none := by
  refine Option.eq_none_iff_forall_ne_some.2 fun x hx => ?_
  obtain ⟨b, hb, rfl, hread⟩ := (bound?_eq_some_iff hdistinct).1 hx
  have hnot := List.find?_eq_none.1 h b hb
  simp [hread] at hnot

/-- What is taken is what the name is bound to when it has this name, or else the same value. -/
theorem taken?_eq_bound?_iff {γ : Type} (hdistinct : (bs.map (·.key)).Nodup)
    (finish : Option β → γ) :
    finish ((taken? name read bs).bind fun b => read b.value) = finish (bound? name read bs) ↔
      ∀ b, taken? name read bs = some b → b.key = name ∨
        finish (read b.value) = finish (bound? name read bs) := by
  cases htaken : taken? name read bs with
  | none => simp [bound?_eq_none hdistinct htaken]
  | some b =>
    have hsame : b.key = name → read b.value = bound? name read bs := by
      intro hkey
      have hfound := List.find?_some htaken
      rw [Bool.and_eq_true] at hfound
      obtain ⟨x, hread⟩ := Option.isSome_iff_exists.1 hfound.2
      rw [hread, (bound?_eq_some_iff hdistinct).2
        ⟨b, List.mem_of_find?_eq_some htaken, hkey, hread⟩]
    constructor
    · intro heq found hfound
      obtain rfl := Option.some.inj hfound
      exact .inr heq
    · intro h
      rw [Option.bind_some]
      rcases h b rfl with hkey | heq
      · rw [hsame hkey]
      · exact heq

end Bound

/-- **Lookups go by whole keywords as long as no longer one comes first.** In a list of bindings
with distinct keywords the tags are those bound to `tags` exactly when the first list whose keyword
ends in `tags` is bound to `tags` itself or has the same words, and the materialization is the word
bound to `materialized` exactly when the first word whose keyword ends in `materialized` is bound
to it or is the same. -/
theorem keywordLookups_iff (hgap : ∀ c ∈ gap, isWhite c = true) {bs : List Binding}
    (hdistinct : (bs.map (·.key)).Nodup) :
    (extractTags (bindingsText gap bs) = boundTags bs ↔
      ∀ b, taken? "tags" BoundValue.words? bs = some b →
        b.key = "tags" ∨ b.value.words?.getD [] = boundTags bs) ∧
    (extractMaterialization (bindingsText gap bs) = boundMaterialization bs ↔
      ∀ b, taken? "materialized" BoundValue.word? bs = some b →
        b.key = "materialized" ∨ b.value.word? = boundMaterialization bs) := by
  rw [extractTags_bindingsText hgap, extractMaterialization_bindingsText hgap]
  exact ⟨taken?_eq_bound?_iff hdistinct fun words => words.getD [],
    taken?_eq_bound?_iff hdistinct id⟩

end Lookups

/-! ## A longer keyword -/

/-- A word between single quotation marks. -/
def singleQuoted (word : String) (h : IsName word.toList) : QuotedWord := ⟨'\'', word, rfl, h⟩

/-- A list of classification tags. -/
def policyTags : Binding where
  key := "policy_tags"
  value := .list [singleQuoted "pii" ⟨by decide, by decide⟩]
  isName_key := ⟨by decide, by decide⟩

/-- The tags of a model. -/
def modelTagList : Binding where
  key := "tags"
  value := .list [singleQuoted "oda" ⟨by decide, by decide⟩,
    singleQuoted "staging" ⟨by decide, by decide⟩]
  isName_key := isName_tags

/-- The materialization of a model. -/
def modelMaterialization : Binding where
  key := "materialized"
  value := .word (singleQuoted "view" ⟨by decide, by decide⟩)
  isName_key := isName_materialized

/-- With the tags in front of the longer keyword both lookups are right. -/
theorem keywordLookups_tagsFirst :
    (∀ c ∈ [' '], isWhite c = true) ∧
    (([modelTagList, policyTags, modelMaterialization]).map (·.key)).Nodup ∧
    extractTags (bindingsText [' '] [modelTagList, policyTags, modelMaterialization]) =
      ["oda", "staging"] ∧
    extractMaterialization (bindingsText [' '] [modelTagList, policyTags, modelMaterialization]) =
      some "view" := by
  have hgap : ∀ c ∈ [' '], isWhite c = true := by decide
  have hdistinct : (([modelTagList, policyTags, modelMaterialization]).map (·.key)).Nodup := by
    decide
  obtain ⟨htags, hmaterialization⟩ := keywordLookups_iff hgap hdistinct
  refine ⟨hgap, hdistinct, htags.2 fun b hb => .inl ?_, hmaterialization.2 fun b hb => .inl ?_⟩
  · obtain rfl : modelTagList = b := Option.some.inj hb
    rfl
  · obtain rfl : modelMaterialization = b := Option.some.inj hb
    rfl

/-- **A longer keyword is taken for the tags.** The classification tags stand in front, and they
are read in place of the tags of the model. -/
theorem policyTags_taken_for_tags :
    (([policyTags, modelTagList]).map (·.key)).Nodup ∧
    bindingsText [' '] [policyTags, modelTagList] =
      "policy_tags=['pii'], tags=['oda', 'staging']".toList ∧
    boundTags [policyTags, modelTagList] = ["oda", "staging"] ∧
    extractTags (bindingsText [' '] [policyTags, modelTagList]) = ["pii"] := by
  decide +kernel

end StagingAudit
