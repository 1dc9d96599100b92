import StagingAudit.Proofs.Text.Offset
import StagingAudit.Proofs.Text.Recognition

/-!
# Spellings of a text

The same model can be written in capitals or in small letters, and its lines can end in one
character or in two. A `Spelling` is a way to write a text that changes nothing else: a line feed
stands alone or behind a carriage return, and any other character is written in some ASCII case.

Recognisers go by classes of characters and by letters, and a spelling keeps both. So **what a
recogniser leaves of a text in a spelling is what it leaves of the text, in that spelling**
(`Follows`), and this goes for recognisers that are put together from such. A search has more places
to look at, those between a carriage return and its line feed; where none of them is the first to
be found (`Respects`), it finds the same place in both texts (`scan?_write`).
-/

namespace StagingAudit

/-! ## Properties that do not depend on case -/

/-- A property of characters is the same in either case if it is so in ASCII. -/
theorem apply_toLower {α : Type} {p : Char → α}
    (h : ∀ n < 0x80, p (Char.ofNat n).toLower = p (Char.ofNat n)) (c : Char) :
    p c.toLower = p c := by
  by_cases hc : c.toNat < 0x80
  · exact ascii_cases (motive := fun c => p c.toLower = p c) h hc
  · rw [toLower_eq_self (by omega)]

theorem isWhite_toLower (c : Char) : isWhite c.toLower = isWhite c := apply_toLower (by decide) c

theorem isWord_toLower (c : Char) : isWord c.toLower = isWord c := apply_toLower (by decide) c

theorem foldCase_toLower (c : Char) : foldCase c.toLower = foldCase c := apply_toLower (by decide) c

theorem utf8Size_toLower (c : Char) : c.toLower.utf8Size = c.utf8Size := apply_toLower (by decide) c

/-- A character that is its own lower case, or a letter that is written as another one. -/
theorem toLower_eq_self_or (c : Char) :
    c.toLower = c ∨ c.isAlpha = true ∧ c.toLower.isAlpha = true := by
  by_cases hc : c.toNat < 0x80
  · revert hc
    exact ascii_cases (motive := fun c =>
      c.toLower = c ∨ c.isAlpha = true ∧ c.toLower.isAlpha = true) (by decide)
  · exact .inl (toLower_eq_self (by omega))

/-- What is no letter is the lower case of itself only. -/
theorem toLower_eq_iff {x : Char} (hx : x.isAlpha = false) (c : Char) : c.toLower = x ↔ c = x := by
  rcases toLower_eq_self_or c with hself | ⟨hletter, hlower⟩
  · rw [hself]
  · refine iff_of_false ?_ ?_
    · rintro rfl
      rw [hlower] at hx
      cases hx
    · rintro rfl
      rw [hletter] at hx
      cases hx

/-- In ASCII only the ranges count that start there. -/
theorem inRanges_of_ascii (rs : List CodeRange) {c : Char} (hc : c.toNat < 0x80) :
    inRanges rs c = inRanges (rs.filter fun r => r.first < 0x80) c := by
  have hsame : ∀ r : CodeRange, (decide (r.first < 0x80) && r.holds c) = r.holds c := by
    intro r
    simp only [CodeRange.holds, Bool.and_eq_right_iff_imp, Bool.and_eq_true, decide_eq_true_eq]
    omega
  simp only [inRanges, List.any_filter, hsame]

/-- A class of characters is the same in either case if its ranges in ASCII are. -/
theorem inRanges_toLower {rs ascii : List CodeRange}
    (hrs : (rs.filter fun r => r.first < 0x80) = ascii)
    (h : ∀ n < 0x80, inRanges ascii (Char.ofNat n).toLower = inRanges ascii (Char.ofNat n))
    (c : Char) : inRanges rs c.toLower = inRanges rs c := by
  by_cases hc : c.toNat < 0x80
  · rw [inRanges_of_ascii rs hc, inRanges_of_ascii rs (toLower_lt hc), hrs]
    exact ascii_cases (motive := fun c => inRanges ascii c.toLower = inRanges ascii c) h hc
  · rw [toLower_eq_self (by omega)]

/-- Whether a cased character is reached does not depend on case. -/
theorem reachesCased_map_toLower (cs : List Char) :
    reachesCased (cs.map Char.toLower) = reachesCased cs := by
  have hignorable : caseIgnorableRanges.filter (fun r => r.first < 0x80) =
      [⟨0x27, 0x27⟩, ⟨0x2E, 0x2E⟩, ⟨0x3A, 0x3A⟩, ⟨0x5E, 0x5E⟩, ⟨0x60, 0x60⟩] := by decide +kernel
  have hcased : casedRanges.filter (fun r => r.first < 0x80) = [⟨0x41, 0x5A⟩, ⟨0x61, 0x7A⟩] := by
    decide +kernel
  have hskipped : inRanges caseIgnorableRanges ∘ Char.toLower = inRanges caseIgnorableRanges :=
    funext (inRanges_toLower hignorable (by decide))
  rw [reachesCased, reachesCased, List.dropWhile_map, hskipped]
  cases cs.dropWhile (inRanges caseIgnorableRanges) with
  | nil => rfl
  | cons c rest => exact inRanges_toLower hcased (by decide) c

theorem lowerChar_toLower (before : List Char) (c : Char) (after : List Char) :
    lowerChar (before.map Char.toLower) c.toLower (after.map Char.toLower) =
      lowerChar before c after := by
  by_cases hc : c.toNat < 0x80
  · rw [lowerChar, lowerChar, if_pos hc, if_pos (toLower_lt hc), toLower_toLower hc]
  · rw [toLower_eq_self (by omega), lowerChar, lowerChar, reachesCased_map_toLower,
      reachesCased_map_toLower]

/-- Texts that are equal up to ASCII case have the same lower case. -/
theorem lowerCase_eq_of_sameAsciiCase {a b : List Char} (h : sameAsciiCase a b = true) :
    lowerCase a = lowerCase b := by
  have hmap : ∀ (cs before : List Char),
      lowerFrom (before.map Char.toLower) (cs.map Char.toLower) = lowerFrom before cs := by
    intro cs
    induction cs with
    | nil =>
      intro before
      rfl
    | cons c cs ih =>
      intro before
      rw [List.map_cons, lowerFrom, lowerFrom, lowerChar_toLower, ← List.map_cons, ih]
  rw [sameAsciiCase, beq_iff_eq] at h
  rw [lowerCase, lowerCase, ← hmap a, ← hmap b, h]

/-- The case in which a text is looked for makes no difference. -/
theorem folded_eq_of_sameAsciiCase {a b : List Char} (h : sameAsciiCase a b = true) :
    Recogniser.folded a = Recogniser.folded b := by
  have hmap : ∀ pattern cs : List Char,
      Recogniser.folded (pattern.map Char.toLower) cs = Recogniser.folded pattern cs := by
    intro pattern
    induction pattern with
    | nil =>
      intro cs
      rfl
    | cons p pattern ih =>
      intro cs
      cases cs with
      | nil => rfl
      | cons c cs =>
        rw [List.map_cons, Recogniser.folded, Recogniser.folded, ih, sameLetter, foldCase_toLower,
          sameLetter]
  rw [sameAsciiCase, beq_iff_eq] at h
  funext cs
  rw [← hmap a, ← hmap b, h]

/-- The line of a place counts the line feeds before it. -/
theorem lineAt_append (a b : List Char) : lineAt (a ++ b) (byteLength a) = a.count '\n' + 1 := by
  rw [lineAt]
  congr 1
  induction a with
  | nil => cases b <;> rfl
  | cons c a ih =>
    have hpos := c.utf8Size_pos
    obtain ⟨n, hn⟩ : ∃ n, byteLength (c :: a) = n + 1 :=
      ⟨byteLength (c :: a) - 1, by rw [byteLength_cons]; omega⟩
    have hrest : n + 1 - c.utf8Size = byteLength a := by
      rw [← hn, byteLength_cons, Nat.add_sub_cancel_left]
    rw [List.cons_append, hn, newlinesBefore, hrest, ih, List.count_cons, Nat.add_comm]
    simp only [beq_iff_eq]

/-! ## Spellings -/

/-- A way to write the characters of a text. -/
structure Spelling where
  /-- how a character is written -/
  spell : Char → List Char
  /-- a line feed stands alone or behind a carriage return -/
  spell_feed : spell '\n' = ['\n'] ∨ spell '\n' = ['\r', '\n']
  /-- any other character is written in some ASCII case -/
  spell_other : ∀ c ≠ '\n', ∃ d, spell c = [d] ∧ d.toLower = c.toLower

namespace Spelling

/-- Everything in small letters. -/
def lower : Spelling where
  spell c := [c.toLower]
  spell_feed := .inl rfl
  spell_other c _ := ⟨c.toLower, rfl, apply_toLower (p := Char.toLower) (by decide) c⟩

/-- Every line feed behind a carriage return. -/
def crlf : Spelling where
  spell c := if c = '\n' then ['\r', '\n'] else [c]
  spell_feed := .inr rfl
  spell_other c hc := ⟨c, if_neg hc, rfl⟩

variable (s : Spelling)

/-- A text in a spelling. -/
def write (cs : List Char) : List Char := cs.flatMap s.spell

@[simp]
theorem write_nil : s.write [] = [] := rfl

theorem write_singleton (c : Char) : s.write [c] = s.spell c := List.flatMap_singleton s.spell c

theorem write_cons (c : Char) (cs : List Char) : s.write (c :: cs) = s.spell c ++ s.write cs := rfl

@[simp]
theorem write_append (a b : List Char) : s.write (a ++ b) = s.write a ++ s.write b :=
  List.flatMap_append

theorem lower_write (cs : List Char) : lower.write cs = cs.map Char.toLower :=
  List.map_eq_flatMap.symm

/-- A character is written as one, or it is a line feed that is written as two. -/
theorem spell_cases (c : Char) :
    (∃ d, s.spell c = [d] ∧ d.toLower = c.toLower) ∨ c = '\n' ∧ s.spell c = ['\r', '\n'] := by
  by_cases hc : c = '\n'
  · subst hc
    exact s.spell_feed.imp (fun h => ⟨'\n', h, rfl⟩) fun h => ⟨rfl, h⟩
  · exact .inl (s.spell_other c hc)

theorem spell_ne_nil (c : Char) : s.spell c ≠ [] := by
  rcases s.spell_cases c with ⟨d, hd, -⟩ | ⟨-, hd⟩
  · rw [hd]
    exact List.cons_ne_nil _ _
  · rw [hd]
    exact List.cons_ne_nil _ _

/-- A property of characters that the spelling does not change. -/
def Keeps {α : Type} (p : Char → α) : Prop := ∀ c, ∀ d ∈ s.spell c, p d = p c

variable {s}

/-- What depends neither on case nor on how a line ends is kept. -/
theorem keeps_of_toLower {α : Type} {p : Char → α} (hcase : ∀ c, p c.toLower = p c)
    (hfeed : p '\r' = p '\n') : s.Keeps p := by
  intro c d hd
  rcases s.spell_cases c with ⟨e, he, hlower⟩ | ⟨rfl, he⟩
  · rw [he, List.mem_singleton] at hd
    rw [hd, ← hcase e, hlower, hcase]
  · rw [he] at hd
    simp only [List.mem_cons, List.not_mem_nil, or_false] at hd
    rcases hd with rfl | rfl
    · exact hfeed
    · rfl

theorem keeps_isWhite : s.Keeps isWhite := keeps_of_toLower isWhite_toLower (by decide)

theorem keeps_isWord : s.Keeps isWord := keeps_of_toLower isWord_toLower (by decide)

/-- Letters are kept up to case, if they are letters of a word. -/
theorem keeps_sameLetter {p : Char} (hp : isWhite (foldCase p) = false) :
    s.Keeps (sameLetter p) := by
  have hno : ∀ c, isWhite c = true → sameLetter p c = false := by
    intro c hc
    rw [← Bool.not_eq_true]
    intro hsame
    rw [isWhite_of_sameLetter hsame hp] at hc
    cases hc
  refine keeps_of_toLower (fun c => ?_) ?_
  · rw [sameLetter, sameLetter, foldCase_toLower]
  · rw [hno '\r' (by decide), hno '\n' (by decide)]

/-- A character that stands in the spelling exactly where it stands in the text. -/
def Fixes (s : Spelling) (x : Char) : Prop := x ≠ '\n' ∧ ∀ c, ∀ d ∈ s.spell c, d = x ↔ c = x

/-- A sign has no case and ends no line. -/
def isSign (x : Char) : Bool := !x.isAlpha && x != '\r' && x != '\n'

/-- Signs are fixed. -/
theorem fixes_of_isSign {x : Char} (hx : isSign x = true) : s.Fixes x := by
  simp only [isSign, Bool.and_eq_true, Bool.not_eq_true', bne_iff_ne] at hx
  obtain ⟨⟨halpha, hreturn⟩, hfeed⟩ := hx
  have hkeeps : s.Keeps (· = x) :=
    keeps_of_toLower (fun c => propext (toLower_eq_iff halpha c))
      (propext (iff_of_false hreturn.symm hfeed.symm))
  exact ⟨hfeed, fun c d hd => iff_of_eq (hkeeps c d hd)⟩

namespace Fixes

variable {x : Char}

theorem spell_eq (h : s.Fixes x) : s.spell x = [x] := by
  rcases s.spell_cases x with ⟨d, hd, -⟩ | ⟨hx, -⟩
  · rw [hd, (h.2 x d (by rw [hd]; exact List.mem_singleton_self d)).2 rfl]
  · exact absurd hx h.1

/-- A text of characters that are fixed is written as it is. -/
theorem write_eq {pattern : List Char} (h : ∀ x ∈ pattern, s.Fixes x) :
    s.write pattern = pattern := by
  induction pattern with
  | nil => rfl
  | cons x pattern ih =>
    rw [write_cons, (h x (by simp)).spell_eq, ih fun y hy => h y (List.mem_cons_of_mem x hy)]
    rfl

theorem mem_write_iff (h : s.Fixes x) {cs : List Char} : x ∈ s.write cs ↔ x ∈ cs := by
  rw [write, List.mem_flatMap]
  refine ⟨?_, fun hx => ⟨x, hx, by rw [h.spell_eq]; exact List.mem_singleton_self x⟩⟩
  rintro ⟨c, hc, hx⟩
  rwa [← (h.2 c x hx).1 rfl]

end Fixes

/-- Every character that ends no line is fixed when only line ends are spelled. -/
theorem crlf_fixes {x : Char} (hfeed : x ≠ '\n') (hreturn : x ≠ '\r') : crlf.Fixes x := by
  refine ⟨hfeed, fun c d hd => ?_⟩
  by_cases hc : c = '\n'
  · subst hc
    obtain rfl | rfl : d = '\r' ∨ d = '\n' := by simpa [crlf] using hd
    · exact iff_of_false hreturn.symm hfeed.symm
    · exact Iff.rfl
  · obtain rfl : d = c := by simpa [crlf, hc] using hd
    exact Iff.rfl

/-- A text without line feeds is then written as it is. -/
theorem crlf_write_eq {cs : List Char} (h : '\n' ∉ cs) : crlf.write cs = cs := by
  induction cs with
  | nil => rfl
  | cons c cs ih =>
    rw [List.mem_cons, not_or] at h
    have hspell : crlf.spell c = [c] := if_neg (Ne.symm h.1)
    rw [write_cons, ih h.2, hspell]
    rfl

/-! ## Written texts -/

/-- The first character of a text in a spelling; what follows it is the rest of the text, except
behind the carriage return of a line feed. -/
theorem exists_write_cons (c : Char) (cs : List Char) :
    ∃ d rest, s.write (c :: cs) = d :: rest ∧ d ∈ s.spell c ∧ (c ≠ '\n' → rest = s.write cs) := by
  rw [write_cons]
  rcases s.spell_cases c with ⟨d, hd, -⟩ | ⟨rfl, hd⟩
  · exact ⟨d, s.write cs, by rw [hd]; rfl, by rw [hd]; exact List.mem_singleton_self d,
      fun _ => rfl⟩
  · exact ⟨'\r', '\n' :: s.write cs, by rw [hd]; rfl, by rw [hd]; exact List.mem_cons_self,
      fun h => absurd rfl h⟩

@[simp]
theorem isEmpty_write (cs : List Char) : (s.write cs).isEmpty = cs.isEmpty := by
  cases cs with
  | nil => rfl
  | cons c cs =>
    obtain ⟨d, rest, hwrite, -⟩ := @exists_write_cons s c cs
    rw [hwrite]
    rfl

/-- The last character that stands for one is a line feed exactly when that one is. -/
theorem exists_getLast?_spell (c : Char) :
    ∃ d ∈ s.spell c, (s.spell c).getLast? = some d ∧ (d = '\n' ↔ c = '\n') := by
  rcases s.spell_cases c with ⟨d, hd, hlower⟩ | ⟨rfl, hd⟩
  · rw [hd]
    refine ⟨d, List.mem_singleton_self d, rfl, ?_⟩
    rw [← toLower_eq_iff (by decide) d, hlower, toLower_eq_iff (by decide)]
  · rw [hd]
    exact ⟨'\n', by simp, rfl, Iff.rfl⟩

/-- Line feeds are neither lost nor made. -/
theorem count_feed_write (cs : List Char) : (s.write cs).count '\n' = cs.count '\n' := by
  induction cs with
  | nil => rfl
  | cons c cs ih =>
    have hspell : (s.spell c).count '\n' = [c].count '\n' := by
      rcases s.spell_cases c with ⟨d, hd, -⟩ | ⟨rfl, hd⟩
      · obtain ⟨d', -, hlast, hfeed⟩ := @exists_getLast?_spell s c
        rw [hd, List.getLast?_singleton, Option.some.injEq] at hlast
        subst hlast
        simp only [hd, List.count_singleton, beq_iff_eq, hfeed]
      · rw [hd]
        rfl
    rw [write_cons, List.count_append, ih, hspell, ← List.count_append, List.singleton_append]

theorem mem_feed_write {cs : List Char} : '\n' ∈ s.write cs ↔ '\n' ∈ cs := by
  rw [← List.count_pos_iff, count_feed_write, List.count_pos_iff]

theorem dropWhile_flatMap {α β : Type} {f : α → List β} {p : β → Bool} {q : α → Bool}
    (h : ∀ a, ∀ b ∈ f a, p b = q a) (hne : ∀ a, f a ≠ []) (l : List α) :
    (l.flatMap f).dropWhile p = (l.dropWhile q).flatMap f := by
  induction l with
  | nil => rfl
  | cons a l ih =>
    rw [List.flatMap_cons]
    cases hq : q a with
    | true =>
      rw [List.dropWhile_append_of_pos fun b hb => by rw [h a b hb, hq], ih,
        List.dropWhile_cons_of_pos hq]
    | false =>
      obtain ⟨b, rest, hb⟩ := List.exists_cons_of_ne_nil (hne a)
      have hpb : p b = false := by rw [h a b (by rw [hb]; exact List.mem_cons_self), hq]
      rw [List.dropWhile_cons_of_neg (by simp [hq]), List.flatMap_cons, hb, List.cons_append,
        List.dropWhile_cons_of_neg (by simp [hpb])]

theorem takeWhile_flatMap {α β : Type} {f : α → List β} {p : β → Bool} {q : α → Bool}
    (h : ∀ a, ∀ b ∈ f a, p b = q a) (hne : ∀ a, f a ≠ []) (l : List α) :
    (l.flatMap f).takeWhile p = (l.takeWhile q).flatMap f := by
  induction l with
  | nil => rfl
  | cons a l ih =>
    rw [List.flatMap_cons]
    cases hq : q a with
    | true =>
      rw [List.takeWhile_append_of_pos fun b hb => by rw [h a b hb, hq], ih,
        List.takeWhile_cons_of_pos hq, List.flatMap_cons]
    | false =>
      obtain ⟨b, rest, hb⟩ := List.exists_cons_of_ne_nil (hne a)
      have hpb : p b = false := by rw [h a b (by rw [hb]; exact List.mem_cons_self), hq]
      rw [List.takeWhile_cons_of_neg (by simp [hq]), hb, List.cons_append,
        List.takeWhile_cons_of_neg (by simp [hpb])]
      rfl

section Class

variable {p : Char → Bool}

theorem dropWhile_write (hp : s.Keeps p) (cs : List Char) :
    (s.write cs).dropWhile p = s.write (cs.dropWhile p) :=
  dropWhile_flatMap hp s.spell_ne_nil cs

theorem takeWhile_write (hp : s.Keeps p) (cs : List Char) :
    (s.write cs).takeWhile p = s.write (cs.takeWhile p) :=
  takeWhile_flatMap hp s.spell_ne_nil cs

theorem skipWhite_write (cs : List Char) : skipWhite (s.write cs) = s.write (skipWhite cs) :=
  dropWhile_write keeps_isWhite cs

theorem dropTrailing_write (hp : s.Keeps p) (cs : List Char) :
    dropTrailing p (s.write cs) = s.write (dropTrailing p cs) := by
  have hreverse : ∀ c, ∀ d ∈ (List.reverse ∘ s.spell) c, p d = p c :=
    fun c d hd => hp c d (List.mem_reverse.1 hd)
  have hne : ∀ c, (List.reverse ∘ s.spell) c ≠ [] :=
    fun c hnil => s.spell_ne_nil c (List.reverse_eq_nil_iff.1 hnil)
  have hspell : List.reverse ∘ (List.reverse ∘ s.spell) = s.spell :=
    funext fun c => List.reverse_reverse _
  rw [dropTrailing, dropTrailing, write, List.reverse_flatMap, dropWhile_flatMap hreverse hne,
    List.reverse_flatMap, hspell]
  rfl

theorem trimClass_write (hp : s.Keeps p) (cs : List Char) :
    trimClass p (s.write cs) = s.write (trimClass p cs) := by
  rw [trimClass, trimClass, dropWhile_write hp, dropTrailing_write hp]

theorem trimWhite_write (cs : List Char) : trimWhite (s.write cs) = s.write (trimWhite cs) :=
  trimClass_write keeps_isWhite cs

/-- Whether the first character is of a class. -/
theorem any_head?_write (hp : s.Keeps p) (cs : List Char) :
    (s.write cs).head?.any p = cs.head?.any p := by
  cases cs with
  | nil => rfl
  | cons c cs =>
    obtain ⟨d, rest, hwrite, hd, -⟩ := @exists_write_cons s c cs
    rw [hwrite]
    exact hp c d hd

end Class

/-- A text falls into the same pieces. -/
theorem splitAt_write {x : Char} (hx : s.Fixes x) (cs : List Char) :
    splitAt x (s.write cs) = (splitAt x cs).map s.write := by
  induction cs using splitAt_induction x with
  | piece cs hmem =>
    rw [splitAt_of_not_mem hmem, splitAt_of_not_mem (mt hx.mem_write_iff.1 hmem)]
    rfl
  | append a b iha ihb =>
    rw [write_append, write_cons, hx.spell_eq, List.singleton_append, splitAt_append,
      splitAt_append, List.map_append, iha, ihb]

/-- Within a line only case is spelled. -/
theorem sameAsciiCase_write {cs : List Char} (h : '\n' ∉ cs) :
    sameAsciiCase (s.write cs) cs = true := by
  rw [sameAsciiCase, beq_iff_eq]
  induction cs with
  | nil => rfl
  | cons c cs ih =>
    rw [List.mem_cons, not_or] at h
    obtain ⟨d, hd, hlower⟩ := s.spell_other c (Ne.symm h.1)
    rw [write_cons, hd, List.map_append, ih h.2, List.map_cons, hlower]
    rfl

/-- The line of a place is the same. -/
theorem lineAt_write (a b : List Char) :
    lineAt (s.write (a ++ b)) (byteLength (s.write a)) = lineAt (a ++ b) (byteLength a) := by
  rw [write_append, lineAt_append, lineAt_append, count_feed_write]

/-! ## Recognisers -/

/-- A recogniser that leaves of a text in the spelling what it leaves of the text. -/
def Follows (s : Spelling) (r : Recogniser) : Prop := ∀ cs, r (s.write cs) = (r cs).map s.write

theorem follows_literal {pattern : List Char} (h : ∀ x ∈ pattern, s.Fixes x) :
    s.Follows (Recogniser.literal pattern) := by
  induction pattern with
  | nil =>
    intro cs
    rfl
  | cons x pattern ih =>
    intro cs
    cases cs with
    | nil => rfl
    | cons c cs =>
      have hx := h x (by simp)
      obtain ⟨d, rest, hwrite, hd, hrest⟩ := @exists_write_cons s c cs
      rw [hwrite, Recogniser.literal, Recogniser.literal]
      by_cases hxc : x = c
      · rw [if_pos hxc, if_pos ((hx.2 c d hd).2 hxc.symm).symm, hrest (hxc ▸ hx.1),
          ih fun y hy => h y (List.mem_cons_of_mem x hy)]
      · rw [if_neg hxc, if_neg fun hxd => hxc ((hx.2 c d hd).1 hxd.symm).symm]
        rfl

theorem follows_sign {x : Char} (hx : isSign x = true) : s.Follows (Recogniser.literal [x]) :=
  follows_literal fun _ hy => List.mem_singleton.1 hy ▸ fixes_of_isSign hx

theorem follows_folded {pattern : List Char} (h : ∀ p ∈ pattern, isWhite (foldCase p) = false) :
    s.Follows (Recogniser.folded pattern) := by
  induction pattern with
  | nil =>
    intro cs
    rfl
  | cons p pattern ih =>
    intro cs
    cases cs with
    | nil => rfl
    | cons c cs =>
      have hp := h p (by simp)
      obtain ⟨d, rest, hwrite, hd, hrest⟩ := @exists_write_cons s c cs
      rw [hwrite, Recogniser.folded, Recogniser.folded, keeps_sameLetter hp c d hd]
      by_cases hpc : sameLetter p c = true
      · have hfeed : c ≠ '\n' := by
          rintro rfl
          have hwhite := isWhite_of_sameLetter hpc hp
          cases hwhite
        rw [if_pos hpc, if_pos hpc, hrest hfeed, ih fun q hq => h q (List.mem_cons_of_mem p hq)]
      · rw [if_neg hpc, if_neg hpc]
        rfl

theorem follows_run {p : Char → Bool} (hp : s.Keeps p) : s.Follows (Recogniser.run p) := by
  have hrun : ∀ cs, Recogniser.run p cs =
      if cs.head?.any p then some (cs.dropWhile p) else none := by
    intro cs
    cases cs with
    | nil => rfl
    | cons c cs =>
      rw [Recogniser.run, List.head?_cons, Option.any_some]
      cases hc : p c with
      | true => rw [List.dropWhile_cons_of_pos hc]
      | false => rfl
  intro cs
  rw [hrun, hrun, any_head?_write hp, dropWhile_write hp]
  split <;> rfl

theorem follows_white1 : s.Follows Recogniser.white1 := follows_run keeps_isWhite

theorem follows_word : s.Follows Recogniser.word := follows_run keeps_isWord

/-- Recognisers that follow can be put one after the other. -/
theorem Follows.bind {r r' : Recogniser} (h : s.Follows r) (h' : s.Follows r') :
    s.Follows fun cs => (r cs).bind r' := by
  intro cs
  show (r (s.write cs)).bind r' = ((r cs).bind r').map s.write
  rw [h, Option.bind_map, Option.map_bind]
  exact congrArg _ (funext h')

/-- So can one that follows and a question that has the same answer in either text. -/
theorem Follows.bind_eq {α : Type} {r : Recogniser} {k : List Char → Option α} (h : s.Follows r)
    (hk : ∀ cs, k (s.write cs) = k cs) (cs : List Char) :
    (r (s.write cs)).bind k = (r cs).bind k := by
  rw [h, Option.bind_map]
  exact congrArg _ (funext hk)

/-- White space between them does not matter. -/
theorem Follows.behindWhite {r : Recogniser} (h : s.Follows r) :
    s.Follows fun cs => r (skipWhite cs) := by
  intro cs
  show r (skipWhite (s.write cs)) = (r (skipWhite cs)).map s.write
  rw [skipWhite_write, h]

/-! ## Searches

The text in the spelling has places that the text has not, between a carriage return and the line
feed it stands before. A shape that starts with white space may well be found there, but then it is
found one place earlier already, in front of the carriage return. It is enough to ask that nothing
is found between the two which is not found before (`Respects`); that the search is the leftmost one
does the rest. -/

/-- The character before a place of the text in the spelling. -/
def before (s : Spelling) (prev : Option Char) : Option Char :=
  prev.bind fun c => (s.spell c).getLast?

theorem before_some (c : Char) : s.before (some c) = (s.spell c).getLast? := rfl

/-- A class that is kept has the character before a place exactly when it has the one there. -/
theorem any_before {p : Char → Bool} (hp : s.Keeps p) (prev : Option Char) :
    (s.before prev).any p = prev.any p := by
  cases prev with
  | none => rfl
  | some c =>
    obtain ⟨d, hd, hlast, -⟩ := @exists_getLast?_spell s c
    rw [before_some, hlast]
    exact hp c d hd

/-- A place is at the start of a line in either text. -/
theorem before_startsLine (prev : Option Char) :
    (s.before prev = none ∨ s.before prev = some '\n') ↔ (prev = none ∨ prev = some '\n') := by
  cases prev with
  | none => exact Iff.rfl
  | some c =>
    obtain ⟨d, -, hlast, hfeed⟩ := @exists_getLast?_spell s c
    rw [before_some, hlast]
    simp [hfeed]

theorem isWordAt_eq_any (at? : Option Char) : isWordAt at? = at?.any isWord := by
  cases at? <;> rfl

theorem isWordAt_head?_write (cs : List Char) :
    isWordAt (s.write cs).head? = isWordAt cs.head? := by
  rw [isWordAt_eq_any, isWordAt_eq_any, any_head?_write keeps_isWord]

/-- A word starts or ends at the same places. -/
theorem wordEdge_write (prev : Option Char) (cs : List Char) :
    wordEdge (s.before prev) (s.write cs).head? = wordEdge prev cs.head? := by
  rw [wordEdge, wordEdge, isWordAt_head?_write, isWordAt_eq_any, isWordAt_eq_any prev,
    any_before keeps_isWord]

/-- A recogniser that can be asked in either text: at the places of the text it answers the same up
to `g`, and between a carriage return and its line feed it finds nothing new. -/
structure Respects {α : Type} (s : Spelling) (r : Option Char → List Char → Option α) (g : α → α) :
    Prop where
  /-- at a place of the text -/
  here : ∀ prev cs, r (s.before prev) (s.write cs) = (r prev cs).map g
  /-- between a carriage return and its line feed -/
  inside : ∀ prev cs, r prev ('\r' :: '\n' :: cs) = none → r (some '\r') ('\n' :: cs) = none

/-- **A search finds the same place in either text.** -/
theorem Respects.scan?_write {α : Type} {r : Option Char → List Char → Option α} {g : α → α}
    (h : s.Respects r g) (prev : Option Char) (cs : List Char) :
    scan? r (s.before prev) (s.write cs) =
      (scan? r prev cs).map fun (before, a) => (s.write before, g a) := by
  induction cs generalizing prev with
  | nil =>
    have hhere := h.here prev []
    rw [write_nil] at hhere
    rw [write_nil, scan?, scan?, hhere, Option.map_map, Option.map_map]
    rfl
  | cons c cs ih =>
    have hhere := h.here prev (c :: cs)
    rw [write_cons] at hhere ⊢
    cases hr : r prev (c :: cs) with
    | some a =>
      rw [hr] at hhere
      rw [scan?_of_some hr, scan?_of_some hhere]
      rfl
    | none =>
      -- nothing is found in what stands for `c`, and the search goes on behind it
      rw [hr] at hhere
      have hskip : ∀ u v, s.spell c = u ++ v → v ≠ [] →
          r (lastChar (s.before prev) u) (v ++ s.write cs) = none := by
        intro u v huv hv
        rcases u with _ | ⟨b, u⟩
        · rw [List.nil_append] at huv
          rw [← huv]
          exact hhere
        · rcases s.spell_cases c with ⟨d, hd, -⟩ | ⟨-, hd⟩
          · rw [hd, List.cons_append, List.cons.injEq] at huv
            exact absurd (List.append_eq_nil_iff.1 huv.2.symm).2 hv
          · rw [hd] at hhere huv
            rw [List.cons_append, List.cons.injEq] at huv
            obtain ⟨rfl, htail⟩ := huv
            rcases List.append_eq_singleton_iff.1 htail.symm with ⟨rfl, rfl⟩ | ⟨rfl, rfl⟩
            · exact h.inside _ _ hhere
            · exact absurd rfl hv
      have hlast : lastChar (s.before prev) (s.spell c) = s.before (some c) := by
        obtain ⟨d, -, hd, -⟩ := @exists_getLast?_spell s c
        rw [lastChar, before_some, hd]
        rfl
      rw [scan?_append hskip, hlast, ih, scan?, hr, Option.map_map, Option.map_map]
      rfl

/-- So does a search through a whole text. -/
theorem Respects.scan?_none_write {α : Type} {r : Option Char → List Char → Option α} {g : α → α}
    (h : s.Respects r g) (cs : List Char) :
    scan? r none (s.write cs) =
      (scan? r none cs).map fun (before, a) => (s.write before, g a) :=
  h.scan?_write none cs

/-- A recogniser that looks ahead only can be asked in either text if it follows. -/
theorem Follows.respects {r : Recogniser} (h : s.Follows r)
    (hin : ∀ cs, r ('\r' :: '\n' :: cs) = none → r ('\n' :: cs) = none) :
    s.Respects (fun _ => r) s.write :=
  ⟨fun _ => h, fun _ => hin⟩

theorem Respects.find?_write {r : Recogniser} (h : s.Respects (fun _ => r) s.write)
    (cs : List Char) :
    find? r (s.write cs) =
      (find? r cs).map fun (before, rest) => (s.write before, s.write rest) :=
  h.scan?_none_write cs

theorem Respects.occurs_write {r : Recogniser} (h : s.Respects (fun _ => r) s.write)
    (cs : List Char) : occurs r (s.write cs) = occurs r cs := by
  rw [occurs, occurs, h.find?_write, Option.isSome_map]

/-- A fixed text is looked for at the same places. -/
theorem respects_literal {pattern : List Char} (h : ∀ x ∈ pattern, s.Fixes x) :
    s.Respects (fun _ => Recogniser.literal pattern) s.write := by
  refine (follows_literal h).respects fun cs hnone => ?_
  cases pattern with
  | nil => cases hnone
  | cons x pattern => exact if_neg (h x (by simp)).1

theorem cutAt?_write {pattern : List Char} (h : ∀ x ∈ pattern, s.Fixes x) (cs : List Char) :
    cutAt? pattern (s.write cs) =
      (cutAt? pattern cs).map fun (before, after) => (s.write before, s.write after) :=
  (respects_literal h).find?_write cs

end Spelling

end StagingAudit
