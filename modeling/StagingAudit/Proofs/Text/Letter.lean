import StagingAudit.Text.Recogniser

/-!
# Letters and classes of characters

Recognisers tell characters apart by class (white space, word characters) and by letter (simple
case folding). The classes do not overlap, and letters stay inside them: **white space is no word
character and has no case, and every form of an ASCII letter is a word character**. Beyond ASCII
there are only two such forms, the long s and the Kelvin sign, and of these only the Kelvin sign
is also lower-cased to ASCII; this is read off the tables once, in `CaseRun.leavesAscii`.
-/

namespace StagingAudit

/-- Whether all characters of a text have a property is decided by going through the text, and not
through all characters there are. -/
instance (priority := 2000) decidableForallMem (cs : List Char) (p : Char → Prop)
    [DecidablePred p] : Decidable (∀ c ∈ cs, p c) :=
  List.decidableBAll p cs

/-- So is whether some character of it has the property. -/
instance (priority := 2000) decidableExistsMem (cs : List Char) (p : Char → Prop)
    [DecidablePred p] : Decidable (∃ c ∈ cs, p c) :=
  List.decidableBEx p cs

/-! ## Character classes -/

/-- The code points of the white-space characters. -/
def whiteCodes : List Nat :=
  [9, 10, 11, 12, 13, 0x20, 0x85, 0xA0, 0x1680, 0x2000, 0x2001, 0x2002, 0x2003, 0x2004, 0x2005,
    0x2006, 0x2007, 0x2008, 0x2009, 0x200A, 0x2028, 0x2029, 0x202F, 0x205F, 0x3000]

/-- The class of white space is the list of its characters. -/
theorem mem_whites_of_isWhite {c : Char} (h : isWhite c = true) :
    c ∈ whiteCodes.map Char.ofNat := by
  have hcode : c.toNat ∈ whiteCodes := by
    simp only [isWhite, Bool.or_eq_true, Bool.and_eq_true, decide_eq_true_eq, beq_iff_eq] at h
    simp only [whiteCodes, List.mem_cons, List.not_mem_nil, or_false]
    omega
  exact List.mem_map.2 ⟨c.toNat, hcode, Char.ofNat_toNat c⟩

/-- White space is no word character. -/
theorem isWord_of_isWhite {c : Char} (h : isWhite c = true) : isWord c = false := by
  have hall : ∀ d ∈ whiteCodes.map Char.ofNat, isWord d = false := by decide +kernel
  exact hall c (mem_whites_of_isWhite h)

/-- Word characters are no white space. -/
theorem isWhite_of_isWord {c : Char} (h : isWord c = true) : isWhite c = false := by
  cases hwhite : isWhite c with
  | false => rfl
  | true =>
    rw [isWord_of_isWhite hwhite] at h
    cases h

/-- White space has no case. -/
theorem foldCase_of_isWhite {c : Char} (h : isWhite c = true) : foldCase c = c := by
  have hall : ∀ d ∈ whiteCodes.map Char.ofNat, foldCase d = d := by decide +kernel
  exact hall c (mem_whites_of_isWhite h)

/-- White space is no form of a letter that folds to something else. -/
theorem isWhite_of_sameLetter {p c : Char} (h : sameLetter p c = true)
    (hp : isWhite (foldCase p) = false) : isWhite c = false := by
  cases hc : isWhite c with
  | false => rfl
  | true =>
    rw [sameLetter, beq_iff_eq, foldCase_of_isWhite hc] at h
    rw [h, hc] at hp
    cases hp

/-! ## Forms of ASCII letters

A letter is compared by what it folds to, so a character beyond ASCII can be a form of an ASCII
letter. Case tables are too long to ask about each of their characters. They are asked once, run by
run, which runs land in ASCII at all; these reach two characters. What has to be known of letters is
then checked on the characters of ASCII and on these two. -/

/-- A property of the ASCII characters can be checked on each of them. -/
theorem ascii_cases {motive : Char → Prop} (h : ∀ n < 0x80, motive (Char.ofNat n)) {c : Char}
    (hc : c.toNat < 0x80) : motive c := by
  have hn := h c.toNat hc
  rwa [Char.ofNat_toNat] at hn

/-- Whether every character that a run moves lands beyond ASCII. -/
def CaseRun.leavesAscii (r : CaseRun) : Bool :=
  0x80 ≤ (r.first : Int) + r.shift &&
    ((r.last : Int) + r.shift < 0xD800 ||
      (0xDFFF < (r.first : Int) + r.shift && (r.last : Int) + r.shift < 0x110000))

/-- A run that leaves ASCII moves no character into it. -/
theorem CaseRun.le_move {r : CaseRun} {c : Char} (hr : r.leavesAscii = true)
    (hc : r.holds c = true) : 0x80 ≤ (r.move c).toNat := by
  simp only [CaseRun.leavesAscii, Bool.and_eq_true, Bool.or_eq_true, decide_eq_true_eq] at hr
  simp only [CaseRun.holds, Bool.and_eq_true, decide_eq_true_eq] at hc
  have hvalid : (((c.toNat : Int) + r.shift).toNat).isValidChar := by
    unfold Nat.isValidChar
    omega
  have hmove : (r.move c).toNat = ((c.toNat : Int) + r.shift).toNat := by
    rw [CaseRun.move, Char.ofNat, dif_pos hvalid]
    rfl
  omega

/-- A character beyond ASCII that is mapped into it is mapped by one of the runs that reach it. -/
theorem exists_of_mapRuns_ascii {rs : List CaseRun} {c : Char} (hc : 0x80 ≤ c.toNat)
    (h : (mapRuns rs c).toNat < 0x80) :
    ∃ r ∈ rs.filter (fun r => !r.leavesAscii), r.holds c = true ∧ mapRuns rs c = r.move c := by
  unfold mapRuns at h ⊢
  cases hfind : rs.find? (·.holds c) with
  | none =>
    rw [hfind] at h
    exact absurd h (by simpa using hc)
  | some r =>
    rw [hfind] at h
    have hholds : r.holds c = true := by simpa using List.find?_some hfind
    refine ⟨r, List.mem_filter.2 ⟨List.mem_of_find?_eq_some hfind, ?_⟩, hholds, rfl⟩
    cases hleaves : r.leavesAscii with
    | false => rfl
    | true => exact absurd (CaseRun.le_move hleaves hholds) (by simpa using h)

/-- A run of one character moves only that one. -/
theorem CaseRun.eq_of_holds {n stride : Nat} {shift : Int} {c : Char}
    (h : CaseRun.holds ⟨n, n, stride, shift⟩ c = true) : c = Char.ofNat n := by
  simp only [CaseRun.holds, Bool.and_eq_true, decide_eq_true_eq] at h
  rw [show n = c.toNat by omega, Char.ofNat_toNat]

/-- Only the long s and the Kelvin sign fold into ASCII from outside. -/
theorem eq_of_foldCase_ascii {c : Char} (hc : 0x80 ≤ c.toNat) (h : (foldCase c).toNat < 0x80) :
    c = 'ſ' ∨ c = Char.ofNat 0x212A := by
  have hruns : foldRuns.filter (fun r => !r.leavesAscii) =
      [⟨0x17F, 0x17F, 1, -268⟩, ⟨0x212A, 0x212A, 1, -8383⟩] := by decide
  rw [foldCase, if_neg (by omega)] at h
  obtain ⟨r, hr, hholds, -⟩ := exists_of_mapRuns_ascii hc h
  rw [hruns] at hr
  simp only [List.mem_cons, List.not_mem_nil, or_false] at hr
  rcases hr with rfl | rfl
  · exact .inl (CaseRun.eq_of_holds hholds)
  · exact .inr (CaseRun.eq_of_holds hholds)

/-- Every form of an ASCII word character is a word character. -/
theorem isWord_of_sameLetter {p c : Char} (hp : p.toNat < 0x80) (hw : isWord p = true)
    (h : sameLetter p c = true) : isWord c = true := by
  have hlower : ∀ {d : Char}, d.toNat < 0x80 → isWord (foldCase d) = isWord d := by
    intro d hd
    exact ascii_cases (motive := fun d => isWord (foldCase d) = isWord d) (by decide) hd
  have hascii : (foldCase p).toNat < 0x80 :=
    ascii_cases (motive := fun d => (foldCase d).toNat < 0x80) (by decide) hp
  rw [sameLetter, beq_iff_eq] at h
  by_cases hc : c.toNat < 0x80
  · rw [← hlower hc, ← h, hlower hp, hw]
  · rcases eq_of_foldCase_ascii (by omega) (h ▸ hascii) with rfl | rfl <;> decide +kernel

/-! ## Lower case

Lower-casing goes by the characters around one, for the final sigma, and can make several characters
of one. So a word cannot be compared with a name character by character from the start. What makes
it possible after all is that a character which comes to one of ASCII comes to nothing else
(`lowersTo_of_lowerChar`): then the first character of the name accounts for the first one of the
word, and so on. -/

/-- Lower-casing twice in ASCII is lower-casing once. -/
theorem toLower_toLower {c : Char} (hc : c.toNat < 0x80) : c.toLower.toLower = c.toLower :=
  ascii_cases (motive := fun c => c.toLower.toLower = c.toLower) (by decide) hc

/-- The lower case of an ASCII character is one. -/
theorem toLower_lt {c : Char} (hc : c.toNat < 0x80) : c.toLower.toNat < 0x80 :=
  ascii_cases (motive := fun c => c.toLower.toNat < 0x80) (by decide) hc

/-- Beyond ASCII there is no lower case in ASCII. -/
theorem toLower_eq_self {c : Char} (hc : 0x80 ≤ c.toNat) : c.toLower = c := by
  have hval : ¬(c.val ≥ 'A'.val ∧ c.val ≤ 'Z'.val) := by
    rintro ⟨-, hle⟩
    have hle' : c.toNat ≤ 90 := UInt32.le_iff_toNat_le.1 hle
    omega
  exact dif_neg hval

/-- Only the Kelvin sign is lower-cased into ASCII by the table. -/
theorem eq_of_lowerRuns_ascii {c : Char} (hc : 0x80 ≤ c.toNat)
    (h : (mapRuns lowerRuns c).toNat < 0x80) : c = Char.ofNat 0x212A := by
  have hruns : lowerRuns.filter (fun r => !r.leavesAscii) = [⟨0x212A, 0x212A, 1, -8383⟩] := by
    decide
  obtain ⟨r, hr, hholds, -⟩ := exists_of_mapRuns_ascii hc h
  rw [hruns, List.mem_singleton] at hr
  subst hr
  exact CaseRun.eq_of_holds hholds

/-- A character that is lower-cased to an ASCII letter, up to ASCII case: the letter itself in
either case, or the Kelvin sign for `k`. -/
def LowersTo (p c : Char) : Prop :=
  p.toNat < 0x80 ∧ (c.toLower = p.toLower ∨ c = Char.ofNat 0x212A ∧ p.toLower = 'k')

/-- What is lower-cased to an ASCII letter is the same letter. -/
theorem LowersTo.sameLetter {p c : Char} (h : LowersTo p c) : sameLetter p c = true := by
  obtain ⟨hp, hletter⟩ := h
  have hfold : foldCase p = p.toLower := if_pos hp
  rw [StagingAudit.sameLetter, beq_iff_eq, hfold]
  rcases hletter with hlower | ⟨rfl, hk⟩
  · have hc : c.toNat < 0x80 := by
      have hlow := toLower_lt hp
      rw [← hlower] at hlow
      exact Nat.lt_of_not_le fun hge => by rw [toLower_eq_self hge] at hlow; omega
    rw [foldCase, if_pos hc, hlower]
  · rw [hk]
    decide +kernel

/-- What is lower-cased to an ASCII character, in ASCII case, is lower-cased to nothing else. -/
theorem lowersTo_of_lowerChar {p c : Char} {before after more ps : List Char}
    (hp : ∀ q ∈ p :: ps, q.toNat < 0x80)
    (h : (lowerChar before c after ++ more).map Char.toLower = (p :: ps).map Char.toLower) :
    LowersTo p c ∧ more.map Char.toLower = ps.map Char.toLower := by
  have hleave : ∀ {d : Char}, 0x80 ≤ d.toNat → ∀ q ∈ p :: ps, d.toLower ≠ q.toLower := by
    intro d hd q hq heq
    have hq := toLower_lt (hp q hq)
    rw [← heq, toLower_eq_self hd] at hq
    omega
  unfold lowerChar at h
  split at h
  · next hc =>
    obtain ⟨hhead, htail⟩ := List.cons.inj h
    rw [toLower_toLower hc] at hhead
    exact ⟨⟨hp p (by simp), .inl hhead⟩, htail⟩
  · next hc =>
    split at h
    · -- a sigma stays beyond ASCII
      obtain ⟨hhead, -⟩ := List.cons.inj h
      refine absurd hhead (hleave ?_ p (by simp))
      split <;> decide
    · split at h
      · -- the dot above of a dotted i stays beyond ASCII
        obtain ⟨-, htail⟩ := List.cons.inj h
        cases ps with
        | nil => cases htail
        | cons q ps =>
          obtain ⟨hdot, -⟩ := List.cons.inj htail
          exact absurd hdot (hleave (by decide) q (by simp))
      · obtain ⟨hhead, htail⟩ := List.cons.inj h
        have hlt : (mapRuns lowerRuns c).toNat < 0x80 :=
          Nat.lt_of_not_le fun hge => hleave hge p (by simp) hhead
        obtain rfl := eq_of_lowerRuns_ascii (by omega) hlt
        refine ⟨⟨hp p (by simp), .inr ⟨rfl, ?_⟩⟩, htail⟩
        rw [← hhead]
        decide +kernel

/-- No character is lower-cased to nothing. -/
theorem lowerChar_ne_nil (before : List Char) (c : Char) (after : List Char) :
    lowerChar before c after ≠ [] := by
  unfold lowerChar
  repeat' split
  all_goals simp

/-- Lower-casing leaves no capital of ASCII. -/
theorem toLower_of_mem_lowerChar {before after : List Char} {c d : Char}
    (h : d ∈ lowerChar before c after) : d.toLower = d := by
  unfold lowerChar at h
  split at h
  · next hc =>
    obtain rfl := List.mem_singleton.1 h
    exact toLower_toLower hc
  · next hc =>
    split at h
    · obtain rfl := List.mem_singleton.1 h
      split <;> decide
    · split at h
      · exact (by decide : ∀ d ∈ ['i', Char.ofNat 0x307], d.toLower = d) d h
      · obtain rfl := List.mem_singleton.1 h
        by_cases hlt : (mapRuns lowerRuns c).toNat < 0x80
        · obtain rfl := eq_of_lowerRuns_ascii (by omega) hlt
          decide +kernel
        · exact toLower_eq_self (by omega)

theorem toLower_of_mem_lowerFrom {before word : List Char} {d : Char}
    (h : d ∈ lowerFrom before word) : d.toLower = d := by
  induction word generalizing before with
  | nil => cases h
  | cons c word ih =>
    rcases List.mem_append.1 h with hhead | htail
    · exact toLower_of_mem_lowerChar hhead
    · exact ih htail

/-- A text in lower case is its own lower case in ASCII. -/
theorem map_toLower_lowerCase (word : List Char) :
    (lowerCase word).map Char.toLower = lowerCase word :=
  (List.map_congr_left fun _ h => toLower_of_mem_lowerFrom h).trans (List.map_id' _)

/-- In ASCII lower case is taken letter by letter. -/
theorem lowerCase_of_ascii {word : List Char} (h : ∀ c ∈ word, c.toNat < 0x80) :
    lowerCase word = word.map Char.toLower := by
  have hfrom : ∀ (word before : List Char), (∀ c ∈ word, c.toNat < 0x80) →
      lowerFrom before word = word.map Char.toLower := by
    intro word
    induction word with
    | nil =>
      intro before _
      rfl
    | cons c word ih =>
      intro before hword
      rw [lowerFrom, lowerChar, if_pos (hword c (by simp)),
        ih _ fun d hd => hword d (List.mem_cons_of_mem c hd)]
      rfl
  exact hfrom word [] h

end StagingAudit
