import StagingAudit.Proofs.Json.Grammar
import StagingAudit.Proofs.Text.Recognition

/-!
# One value for a text

**A JSON text has one value at most** (`Json.IsText.unique`), so what can be read from it does not
depend on who reads it.

Where a part of a text ends is seen from the part and the next character: a string ends at its
quotation mark, a number where no character of a number follows, a list where there is no comma.
`Json.Determines` says this of a part, with the characters that could belong to it, and is put
together along the grammar.
-/

namespace StagingAudit

namespace Json

/-- Whether no other phrase than `a`, with no other text than `t`, starts a text that starts with
`t`, as long as neither of the two goes on with one of the characters `more`. Without this proviso
it would not hold of a number, since the first digits of a number are a number too. -/
def Determines {α : Type} (spells : α → List Char → Prop) (more : Char → Bool) (a : α)
    (t : List Char) : Prop :=
  ∀ ⦃a' : α⦄ ⦃t' r r' : List Char⦄, spells a' t' → t ++ r = t' ++ r' →
    (∀ c ∈ r.head?, more c = false) → (∀ c ∈ r'.head?, more c = false) → a = a' ∧ t = t'

/-! ## Numbers

Nothing marks the end of a number. Behind its sign it has three parts, of which the last two may be
missing, and whether such a part is there shows in the first character behind the part before it. So
each part is determined if no character follows that it could go on with, and it remains to be seen
that the next part does not start with such a character (`stops_fraction`, `stops_whole`). -/

/-- The characters of numbers. -/
def isNumeral (c : Char) : Bool :=
  c.isDigit || c == '+' || c == '-' || c == '.' || c == 'e' || c == 'E'

theorem isNumeral_of_isDigit {c : Char} (h : c.isDigit = true) : isNumeral c = true := by
  simp [isNumeral, h]

theorem isDigit_eq_false {c : Char} (h : isNumeral c = false) : c.isDigit = false := by
  cases hc : c.isDigit with
  | false => rfl
  | true => rw [isNumeral_of_isDigit hc] at h; cases h

/-- Digits start with a digit. -/
theorem IsDigits.exists_cons {ds : List Char} (h : IsDigits ds) :
    ∃ c cs, ds = c :: cs ∧ c.isDigit = true := by
  obtain ⟨hne, hall⟩ := h
  cases ds with
  | nil => exact absurd rfl hne
  | cons c cs => exact ⟨c, cs, rfl, hall c (.head cs)⟩

/-- No sign could go on in front of digits. -/
theorem IsDigits.stops_sign {ds : List Char} (h : IsDigits ds) (r : List Char) :
    ∀ c ∈ (ds ++ r).head?, (!c.isDigit) = false := by
  obtain ⟨d, ds, rfl, hd⟩ := h.exists_cons
  rintro c ⟨⟩
  simp [hd]

theorem IsSign.determines {sign : Int} {mark : List Char} (h : IsSign sign mark) :
    Determines IsSign (fun c => !c.isDigit) sign mark := by
  have hmarks : ∀ {s : Int} {m : List Char}, IsSign s m → ∀ c ∈ m, (!c.isDigit) = true := by
    rintro s m (_ | _ | _) <;> decide
  intro sign' mark' r r' h' heq hr hr'
  obtain ⟨rfl, -⟩ := eq_of_run_append heq (hmarks h) (hmarks h') hr hr'
  refine ⟨?_, rfl⟩
  cases h <;> cases h' <;> rfl

theorem IsFraction.determines {ds t : List Char} (h : IsFraction ds t) :
    Determines IsFraction (fun c => c.isDigit || c == '.') ds t := by
  intro ds' t' r r' h' heq hr hr'
  cases h with
  | none =>
    cases h' with
    | none => exact ⟨rfl, rfl⟩
    | point => exact absurd (hr _ (congrArg List.head? heq)) (by decide)
  | point hds =>
    cases h' with
    | none => exact absurd (hr' _ (congrArg List.head? heq.symm)) (by decide)
    | point hds' =>
      obtain ⟨rfl, -⟩ := eq_of_run_append (List.cons.inj heq).2 hds.2 hds'.2
        (fun c hc => (Bool.or_eq_false_iff.1 (hr c hc)).1)
        (fun c hc => (Bool.or_eq_false_iff.1 (hr' c hc)).1)
      exact ⟨rfl, rfl⟩

theorem IsExponent.determines {e : Int} {t : List Char} (h : IsExponent e t) :
    Determines IsExponent isNumeral e t := by
  have hletter : ∀ {c : Char}, c = 'e' ∨ c = 'E' → isNumeral c ≠ false := by
    rintro c (rfl | rfl) <;> decide
  intro e' t' r r' h' heq hr hr'
  cases h with
  | none =>
    cases h' with
    | none => exact ⟨rfl, rfl⟩
    | power he => exact absurd (hr _ (congrArg List.head? heq)) (hletter he)
  | power he hsign hds =>
    cases h' with
    | none => exact absurd (hr' _ (congrArg List.head? heq.symm)) (hletter he)
    | power he' hsign' hds' =>
      simp only [List.cons_append, List.append_assoc, List.cons.injEq] at heq
      obtain ⟨rfl, heq⟩ := heq
      obtain ⟨rfl, rfl⟩ := hsign.determines hsign' heq (hds.stops_sign _) (hds'.stops_sign _)
      obtain ⟨rfl, -⟩ := eq_of_run_append (List.append_cancel_left heq) hds.2 hds'.2
        (fun c hc => isDigit_eq_false (hr c hc)) (fun c hc => isDigit_eq_false (hr' c hc))
      exact ⟨rfl, rfl⟩

/-- An exponent, or what follows the number, does not belong to a fraction. -/
theorem IsExponent.stops_fraction {e : Int} {t r : List Char} (h : IsExponent e t)
    (hr : ∀ c ∈ r.head?, isNumeral c = false) :
    ∀ c ∈ (t ++ r).head?, (c.isDigit || c == '.') = false := by
  cases h with
  | none =>
    intro c hc
    have hnumeral := hr c hc
    simp only [isNumeral, Bool.or_eq_false_iff] at hnumeral
    simp [hnumeral]
  | power he =>
    rintro c ⟨⟩
    rcases he with rfl | rfl <;> rfl

/-- A fraction or what follows it does not belong to the digits before the point. -/
theorem IsFraction.stops_whole {ds t r : List Char} (h : IsFraction ds t)
    (hr : ∀ c ∈ r.head?, (c.isDigit || c == '.') = false) :
    ∀ c ∈ (t ++ r).head?, c.isDigit = false := by
  cases h with
  | none => exact fun c hc => (Bool.or_eq_false_iff.1 (hr c hc)).1
  | point =>
    rintro c ⟨⟩
    rfl

theorem IsNumber.determines {n : Int × Nat} {t : List Char} (h : IsNumber n t) :
    Determines IsNumber isNumeral n t := by
  intro n' t' r r' h' heq hr hr'
  cases h with
  | mk hsign _ hwhole hfraction hexponent =>
  cases h' with
  | mk hsign' _ hwhole' hfraction' hexponent' =>
  have hends := hexponent.stops_fraction hr
  have hends' := hexponent'.stops_fraction hr'
  simp only [List.append_assoc] at heq
  obtain ⟨rfl, rfl⟩ :=
    hsign.determines hsign' heq (hwhole.1.stops_sign _) (hwhole'.1.stops_sign _)
  obtain ⟨rfl, hrest⟩ := eq_of_run_append (List.append_cancel_left heq) hwhole.1.2 hwhole'.1.2
    (hfraction.stops_whole hends) (hfraction'.stops_whole hends')
  obtain ⟨rfl, rfl⟩ := hfraction.determines hfraction' hrest hends hends'
  obtain ⟨rfl, rfl⟩ := hexponent.determines hexponent' (List.append_cancel_left hrest) hr hr'
  exact ⟨rfl, rfl⟩

/-- A number starts with one of its characters. -/
theorem IsNumber.exists_cons {n : Int × Nat} {t : List Char} (h : IsNumber n t) :
    ∃ c rest, t = c :: rest ∧ isNumeral c = true := by
  cases h with
  | mk hsign _ hwhole _ _ =>
  obtain ⟨d, ds, rfl, hd⟩ := hwhole.1.exists_cons
  cases hsign with
  | none => exact ⟨d, _, rfl, isNumeral_of_isDigit hd⟩
  | plus | minus => exact ⟨_, _, rfl, by decide⟩

/-! ## Texts between quotation marks

A character can be written in several ways: as it is, by a letter, by its code point, or by two
halves of one. So a text is not determined by the string. The string is determined by the text,
since the ways differ in how they start, and each of them ends by itself. -/

/-- A letter stands for one character. -/
theorem eq_of_mem_shortEscapes {c c' letter : Char} (h : (letter, c) ∈ shortEscapes)
    (h' : (letter, c') ∈ shortEscapes) : c = c' := by
  have hall : ∀ x ∈ shortEscapes, ∀ y ∈ shortEscapes, x.1 = y.1 → x.2 = y.2 := by decide
  exact hall _ h _ h' rfl

/-- The letter of escapes by code points is not one of them. -/
theorem not_mem_shortEscapes (c : Char) : ('u', c) ∉ shortEscapes := by
  have hall : ∀ x ∈ shortEscapes, x.1 ≠ 'u' := by decide
  exact fun h => hall _ h rfl

/-- No character has the code point of the first half of a pair. -/
theorem toNat_ne_high (c : Char) {high : Nat} (hh : high < 0x400) : c.toNat ≠ 0xD800 + high := by
  have hvalid : c.toNat < 0xD800 ∨ 0xDFFF < c.toNat ∧ c.toNat < 0x110000 := c.valid
  omega

/-- An escape ends by itself. -/
theorem IsEscape.determines {c : Char} {t : List Char} (h : IsEscape c t) :
    Determines IsEscape (fun _ => false) c t := by
  intro c' t' r r' h' heq _ _
  cases h with
  | short hletter =>
    cases h' with
    | short hletter' =>
      obtain ⟨rfl, -⟩ := List.cons.inj heq
      exact ⟨eq_of_mem_shortEscapes hletter hletter', rfl⟩
    | code | pair =>
      obtain ⟨rfl, -⟩ := List.cons.inj heq
      exact absurd hletter (not_mem_shortEscapes c)
  | code hcode =>
    cases h' with
    | short hletter' =>
      obtain ⟨rfl, -⟩ := List.cons.inj heq
      exact absurd hletter' (not_mem_shortEscapes c')
    | code hcode' =>
      simp only [List.cons_append, List.cons.injEq] at heq
      obtain ⟨-, rfl, rfl, rfl, rfl, -⟩ := heq
      rw [hcode] at hcode'
      exact ⟨Char.toNat_inj.1 (Option.some.inj hcode'), rfl⟩
    | pair hhigh hh =>
      simp only [List.cons_append, List.cons.injEq] at heq
      obtain ⟨-, rfl, rfl, rfl, rfl, -⟩ := heq
      rw [hcode] at hhigh
      exact absurd (Option.some.inj hhigh) (toNat_ne_high c hh)
  | pair hhigh hh hlow _ hc =>
    cases h' with
    | short hletter' =>
      obtain ⟨rfl, -⟩ := List.cons.inj heq
      exact absurd hletter' (not_mem_shortEscapes c')
    | code hcode' =>
      simp only [List.cons_append, List.cons.injEq] at heq
      obtain ⟨-, rfl, rfl, rfl, rfl, -⟩ := heq
      rw [hcode'] at hhigh
      exact absurd (Option.some.inj hhigh) (toNat_ne_high c' hh)
    | pair hhigh' _ hlow' _ hc' =>
      simp only [List.cons_append, List.cons.injEq] at heq
      obtain ⟨-, rfl, rfl, rfl, rfl, -, -, rfl, rfl, rfl, rfl, -⟩ := heq
      rw [hhigh] at hhigh'
      rw [hlow] at hlow'
      have hhigheq := Option.some.inj hhigh'
      have hloweq := Option.some.inj hlow'
      exact ⟨Char.toNat_inj.1 (by omega), rfl⟩

/-- A written character ends by itself. -/
theorem IsWritten.determines {c : Char} {t : List Char} (h : IsWritten c t) :
    Determines IsWritten (fun _ => false) c t := by
  intro c' t' r r' h' heq hr hr'
  cases h with
  | plain _ _ hescape =>
    cases h' with
    | plain =>
      obtain ⟨rfl, -⟩ := List.cons.inj heq
      exact ⟨rfl, rfl⟩
    | escape => exact absurd (List.cons.inj heq).1 hescape
  | escape h =>
    cases h' with
    | plain _ _ hescape => exact absurd (List.cons.inj heq).1.symm hescape
    | escape h' =>
      obtain ⟨rfl, rfl⟩ := h.determines h' (List.cons.inj heq).2 hr hr'
      exact ⟨rfl, rfl⟩

/-- A written character is not empty, and it does not start with a quotation mark. -/
theorem IsWritten.exists_cons {c : Char} {t : List Char} (h : IsWritten c t) :
    ∃ d rest, t = d :: rest ∧ d ≠ '\x22' := by
  cases h with
  | plain _ hquote _ => exact ⟨_, _, rfl, hquote⟩
  | escape => exact ⟨_, _, rfl, by decide⟩

/-- Written characters end at the first quotation mark that none of them holds. -/
theorem AreWritten.determines {cs t : List Char} (h : AreWritten cs t) :
    Determines AreWritten (fun c => c != '\x22') cs t := by
  intro cs' t' r r' h' heq hr hr'
  induction h generalizing cs' t' with
  | nil =>
    cases h' with
    | nil => exact ⟨rfl, rfl⟩
    | cons hd _ =>
      obtain ⟨d, rest, rfl, hquote⟩ := hd.exists_cons
      have hstop := hr d (congrArg List.head? heq)
      simp [hquote] at hstop
  | cons hc _ ih =>
    cases h' with
    | nil =>
      obtain ⟨d, rest, rfl, hquote⟩ := hc.exists_cons
      have hstop := hr' d (congrArg List.head? heq.symm)
      simp [hquote] at hstop
    | cons hc' hs' =>
      rw [List.append_assoc, List.append_assoc] at heq
      obtain ⟨rfl, rfl⟩ := hc.determines hc' heq (fun _ _ => rfl) (fun _ _ => rfl)
      obtain ⟨rfl, rfl⟩ := ih hs' (List.append_cancel_left heq)
      exact ⟨rfl, rfl⟩

/-- A quoted text ends by itself. -/
theorem IsQuoted.determines {s : String} {t : List Char} (h : IsQuoted s t) :
    Determines IsQuoted (fun _ => false) s t := by
  rintro s' t' r r' h' heq - -
  cases h with
  | mk hs =>
  cases h' with
  | mk hs' =>
  simp only [List.cons_append, List.append_assoc, List.cons.injEq, true_and] at heq
  obtain ⟨hchars, rfl⟩ := hs.determines hs' heq (by simp) (by simp)
  exact ⟨String.toList_inj.1 hchars, rfl⟩

/-! ## Values -/

/-- The first character of a value's texts; all the characters of numbers count as one. -/
def lead : Json → Char
  | null => 'n'
  | bool true => 't'
  | bool false => 'f'
  | number _ _ => '0'
  | string _ => '\x22'
  | array _ => '['
  | object _ => '\x7b'

/-- A character, with `0` for all the characters of numbers. -/
def leadOf (c : Char) : Char := if isNumeral c then '0' else c

theorem Spells.exists_cons {j : Json} {t : List Char} (h : Spells (.value j) t) :
    ∃ c rest, t = c :: rest ∧ leadOf c = j.lead := by
  cases h with
  | number h =>
    obtain ⟨c, rest, rfl, hc⟩ := h.exists_cons
    exact ⟨c, rest, rfl, if_pos hc⟩
  | string h =>
    cases h
    exact ⟨_, _, rfl, rfl⟩
  | null | yes | no | emptyArray | array | emptyObject | object => exact ⟨_, _, rfl, rfl⟩

/-- Values with texts that start alike are of one kind. -/
theorem Spells.lead_eq {j j' : Json} {t t' r r' : List Char} (h : Spells (.value j) t)
    (h' : Spells (.value j') t') (heq : t ++ r = t' ++ r') : j.lead = j'.lead := by
  obtain ⟨c, rest, rfl, hc⟩ := h.exists_cons
  obtain ⟨c', rest', rfl, hc'⟩ := h'.exists_cons
  obtain ⟨rfl, -⟩ := List.cons.inj heq
  rw [← hc, hc']

/-- Whether a phrase can start with the character, after white space. -/
def isLead (c : Char) : Bool := !isGap c && c != ']' && c != '\x7d'

theorem isGap_eq_false {c : Char} (h : isLead c = true) : isGap c = false := by
  simp only [isLead, Bool.and_eq_true, Bool.not_eq_true'] at h
  exact h.1.1

/-- Whether a text starts with such a character behind its white space. -/
def HasLead (t : List Char) : Prop :=
  ∃ gap c rest, t = gap ++ c :: rest ∧ IsGap gap ∧ isLead c = true

theorem isLead_of_leadOf {j : Json} {c : Char} (h : leadOf c = j.lead) : isLead c = true := by
  rw [leadOf] at h
  split at h
  · next hc =>
    cases hlead : isLead c with
    | true => rfl
    | false =>
      simp only [isLead, isGap, Bool.and_eq_false_iff, Bool.not_eq_false', Bool.or_eq_true,
        beq_iff_eq, bne_eq_false_iff_eq] at hlead
      rcases hlead with (((((rfl | rfl) | rfl) | rfl) | rfl) | rfl) <;> cases hc
  · subst h
    cases j with
    | bool b => cases b <;> rfl
    | _ => rfl

/-- No phrase is empty or starts with a closing bracket. -/
theorem Spells.hasLead {p : Phrase} {t : List Char} (h : Spells p t) : HasLead t := by
  induction h with
  | element hbefore h _ _ =>
    obtain ⟨c, rest, rfl, hc⟩ := h.exists_cons
    exact ⟨_, c, _, rfl, hbefore, isLead_of_leadOf hc⟩
  | lastElement _ ih | lastMember _ ih => exact ih
  | moreElements _ _ ih | moreMembers _ _ ih =>
    obtain ⟨gap, c, rest, rfl, hgap, hc⟩ := ih
    exact ⟨gap, c, _, by rw [List.append_assoc, List.cons_append], hgap, hc⟩
  | member hbefore hname _ _ _ =>
    cases hname
    exact ⟨_, '\x22', _, rfl, hbefore, rfl⟩
  | number h =>
    obtain ⟨c, rest, rfl, hc⟩ := (Spells.number h).exists_cons
    exact ⟨[], c, rest, rfl, by simp [IsGap], isLead_of_leadOf hc⟩
  | string h =>
    cases h
    exact ⟨[], _, _, rfl, by simp [IsGap], rfl⟩
  | null | yes | no | emptyArray | array | emptyObject | object =>
    exact ⟨[], _, _, rfl, by simp [IsGap], rfl⟩

/-! ## Lists and brackets

Arrays and objects are items with commas between them, in two kinds of brackets. What is shown here
is shown for any items that are determined, and for any closing bracket. The danger is that an item
could go on with what follows it; so the characters that it could go on with are passed along, and a
comma is never among those of an item. -/

section Lists

variable {α : Type} {spells : α → List Char → Prop} {lists : List α → List Char → Prop}
  {more : Char → Bool}

/-- Whether the texts of lists are texts of their items with commas between them. -/
def Commas (spells : α → List Char → Prop) (lists : List α → List Char → Prop) : Prop :=
  ∀ ⦃as : List α⦄ ⦃t : List Char⦄, lists as t →
    (∃ a, as = [a] ∧ spells a t) ∨
      ∃ a as' u v, as = a :: as' ∧ t = u ++ ',' :: v ∧ spells a u ∧ lists as' v

/-- A list of one item ends where its item does, unless a comma follows. -/
theorem Determines.last {a : α} {t : List Char} (h : Determines spells more a t)
    (hlists : Commas spells lists) (hcomma : more ',' = false) :
    Determines lists (fun c => more c || c == ',') [a] t := by
  intro as' t' r r' h' heq hr hr'
  have hends : ∀ c ∈ r.head?, more c = false := fun c hc => (Bool.or_eq_false_iff.1 (hr c hc)).1
  rcases hlists h' with ⟨a', rfl, ha'⟩ | ⟨a', as', u, v, rfl, rfl, ha', -⟩
  · obtain ⟨rfl, rfl⟩ :=
      h ha' heq hends fun c hc => (Bool.or_eq_false_iff.1 (hr' c hc)).1
    exact ⟨rfl, rfl⟩
  · rw [List.append_assoc] at heq
    obtain ⟨rfl, rfl⟩ := h ha' heq hends (by simp [hcomma])
    obtain rfl := List.append_cancel_left heq
    exact absurd (hr _ rfl) (by simp)

/-- A longer list ends where the list behind its first comma does. -/
theorem Determines.cons {a : α} {as : List α} {t ts : List Char} (h : Determines spells more a t)
    (hs : Determines lists (fun c => more c || c == ',') as ts) (hlists : Commas spells lists)
    (hcomma : more ',' = false) :
    Determines lists (fun c => more c || c == ',') (a :: as) (t ++ ',' :: ts) := by
  intro as' t' r r' h' heq hr hr'
  rw [List.append_assoc, List.cons_append] at heq
  rcases hlists h' with ⟨a', rfl, ha'⟩ | ⟨a', as', u, v, rfl, rfl, ha', has'⟩
  · obtain ⟨rfl, rfl⟩ := h ha' heq (by simp [hcomma])
      fun c hc => (Bool.or_eq_false_iff.1 (hr' c hc)).1
    obtain rfl := List.append_cancel_left heq
    exact absurd (hr' _ rfl) (by simp)
  · rw [List.append_assoc, List.cons_append] at heq
    obtain ⟨rfl, rfl⟩ := h ha' heq (by simp [hcomma]) (by simp [hcomma])
    obtain ⟨rfl, rfl⟩ := hs has' (List.cons.inj (List.append_cancel_left heq)).2 hr hr'
    exact ⟨rfl, rfl⟩

/-- Whether a character can close brackets. -/
def IsClosing (c : Char) : Prop := isGap c = false ∧ isLead c = false

/-- White space up to a bracket starts no list. -/
theorem append_ne_of_hasLead {close : Char} {gap t r r' : List Char}
    (hclose : IsClosing close) (hgap : IsGap gap) (h : HasLead t) :
    gap ++ close :: r ≠ t ++ r' := by
  obtain ⟨gap', c, rest, rfl, hgap', hc⟩ := h
  intro heq
  rw [List.append_assoc] at heq
  obtain ⟨-, hrest⟩ := eq_of_run_append heq hgap hgap' (by simp [hclose.1])
    (by simp [isGap_eq_false hc])
  obtain ⟨rfl, -⟩ := List.cons.inj hrest
  rw [hclose.2] at hc
  cases hc

/-- What stands between brackets, white space or a list, ends at the closing one. -/
theorem Determines.inside (lists : List α → List Char → Prop) {close : Char} {as : List α}
    {t : List Char} (hlead : ∀ {as t}, lists as t → HasLead t) (hclose : IsClosing close)
    (hmore : more close = false)
    (h : as = [] ∧ IsGap t ∨ lists as t ∧ Determines lists more as t) ⦃as' : List α⦄
    ⦃t' r r' : List Char⦄ (h' : as' = [] ∧ IsGap t' ∨ lists as' t')
    (heq : t ++ [close] ++ r = t' ++ [close] ++ r') : as = as' ∧ t = t' := by
  simp only [List.append_assoc, List.singleton_append] at heq
  rcases h with ⟨rfl, hgap⟩ | ⟨h, hdetermines⟩
  · rcases h' with ⟨rfl, hgap'⟩ | h'
    · have hstop : ∀ {x : List Char}, ∀ c ∈ (close :: x).head?, isGap c = false := by
        simp [hclose.1]
      exact ⟨rfl, (eq_of_run_append heq hgap hgap' hstop hstop).1⟩
    · exact absurd heq (append_ne_of_hasLead hclose hgap (hlead h'))
  · rcases h' with ⟨rfl, hgap'⟩ | h'
    · exact absurd heq.symm (append_ne_of_hasLead hclose hgap' (hlead h))
    · exact hdetermines h' heq (by simp [hmore]) (by simp [hmore])

end Lists

/-! ## Phrases

The induction is over the grammar, with one case for each production, and it needs of every phrase
that it is determined by its text. How far this holds depends on the kind of phrase: a number may go
on with digits, what stands in a list is followed by white space, and a list itself may go on with a
comma. `Phrase.Determined` has these characters for each kind. -/

/-- Whether a text determines the phrase among those of its kind, with the characters that could
belong to it: white space behind a value, and in a list also the comma. -/
def Phrase.Determined (t : List Char) : Phrase → Prop
  | value j => Determines (fun j => Spells (.value j)) isNumeral j t
  | element j => Determines (fun j => Spells (.element j)) (fun c => isNumeral c || isGap c) j t
  | elements js => Determines (fun js => Spells (.elements js))
      (fun c => isNumeral c || isGap c || c == ',') js t
  | member m => Determines (fun m => Spells (.member m)) (fun c => isNumeral c || isGap c) m t
  | members ms => Determines (fun ms => Spells (.members ms))
      (fun c => isNumeral c || isGap c || c == ',') ms t

/-- The items of a list have commas between them. -/
theorem commas_elements :
    Commas (fun j => Spells (.element j)) fun js => Spells (.elements js) := by
  intro js t h
  cases h with
  | lastElement h => exact .inl ⟨_, rfl, h⟩
  | moreElements h hs => exact .inr ⟨_, _, _, _, rfl, rfl, h, hs⟩

/-- So do the members of an object. -/
theorem commas_members :
    Commas (fun m => Spells (.member m)) fun ms => Spells (.members ms) := by
  intro ms t h
  cases h with
  | lastMember h => exact .inl ⟨_, rfl, h⟩
  | moreMembers h hs => exact .inr ⟨_, _, _, _, rfl, rfl, h, hs⟩

/-- White space in front ends where a value starts. -/
theorem Spells.stops_gap {j : Json} {t : List Char} (h : Spells (.value j) t) (r : List Char) :
    ∀ c ∈ (t ++ r).head?, isGap c = false := by
  obtain ⟨d, rest, rfl, hd⟩ := h.exists_cons
  rintro c ⟨⟩
  exact isGap_eq_false (isLead_of_leadOf hd)

/-- White space ends a number. -/
theorem isNumeral_eq_false {c : Char} (h : isGap c = true) : isNumeral c = false := by
  simp only [isGap, Bool.or_eq_true, beq_iff_eq] at h
  rcases h with (((rfl | rfl) | rfl) | rfl) <;> rfl

/-- A number ends where white space follows it, or what ends an element. -/
theorem IsGap.stops_number {gap x : List Char} (hgap : IsGap gap)
    (hx : ∀ c ∈ x.head?, (isNumeral c || isGap c) = false) :
    ∀ c ∈ (gap ++ x).head?, isNumeral c = false := by
  cases gap with
  | nil => exact fun c hc => (Bool.or_eq_false_iff.1 (hx c hc)).1
  | cons d gap =>
    rintro c ⟨⟩
    exact isNumeral_eq_false (hgap d (.head gap))

section Step

variable {j : Json} {js : List Json} {ms : List (String × Json)} {t : List Char}

/-- A value that is the only one of its kind. -/
theorem determined_of_lead (h : Spells (.value j) t)
    (honly : ∀ {j' t'}, Spells (.value j') t' → j.lead = j'.lead → j = j' ∧ t = t') :
    (Phrase.value j).Determined t := by
  intro j' t' r r' h' heq _ _
  exact honly h' (h.lead_eq h' heq)

theorem determined_array (h : js = [] ∧ IsGap t ∨
    Spells (.elements js) t ∧ (Phrase.elements js).Determined t) :
    (Phrase.value (.array js)).Determined ('[' :: (t ++ [']'])) := by
  have hspells : Spells (.value (.array js)) ('[' :: (t ++ [']'])) := by
    rcases h with ⟨rfl, hgap⟩ | ⟨h, -⟩
    · exact .emptyArray hgap
    · exact .array h
  have hclosing : IsClosing ']' := ⟨rfl, rfl⟩
  have hinside := Determines.inside (fun js => Spells (.elements js)) Spells.hasLead hclosing rfl h
  intro j' t' r r' h' heq _ _
  have hlead := hspells.lead_eq h' heq
  cases h' with
  | emptyArray hgap =>
    obtain ⟨rfl, rfl⟩ := hinside (.inl ⟨rfl, hgap⟩) (List.cons.inj heq).2
    exact ⟨rfl, rfl⟩
  | array h' =>
    obtain ⟨rfl, rfl⟩ := hinside (.inr h') (List.cons.inj heq).2
    exact ⟨rfl, rfl⟩
  | _ => cases hlead

theorem determined_object (h : ms = [] ∧ IsGap t ∨
    Spells (.members ms) t ∧ (Phrase.members ms).Determined t) :
    (Phrase.value (.object ms)).Determined ('\x7b' :: (t ++ ['\x7d'])) := by
  have hspells : Spells (.value (.object ms)) ('\x7b' :: (t ++ ['\x7d'])) := by
    rcases h with ⟨rfl, hgap⟩ | ⟨h, -⟩
    · exact .emptyObject hgap
    · exact .object h
  have hclosing : IsClosing '\x7d' := ⟨rfl, rfl⟩
  have hinside := Determines.inside (fun ms => Spells (.members ms)) Spells.hasLead hclosing rfl h
  intro j' t' r r' h' heq _ _
  have hlead := hspells.lead_eq h' heq
  cases h' with
  | emptyObject hgap =>
    obtain ⟨rfl, rfl⟩ := hinside (.inl ⟨rfl, hgap⟩) (List.cons.inj heq).2
    exact ⟨rfl, rfl⟩
  | object h' =>
    obtain ⟨rfl, rfl⟩ := hinside (.inr h') (List.cons.inj heq).2
    exact ⟨rfl, rfl⟩
  | _ => cases hlead

theorem determined_element {before after : List Char} (hbefore : IsGap before)
    (h : Spells (.value j) t) (hafter : IsGap after) (ht : (Phrase.value j).Determined t) :
    (Phrase.element j).Determined (before ++ (t ++ after)) := by
  intro j' t' r r' h' heq hr hr'
  cases h' with
  | element hbefore' h' hafter' =>
  simp only [List.append_assoc] at heq
  obtain ⟨rfl, hvalue⟩ :=
    eq_of_run_append heq hbefore hbefore' (h.stops_gap _) (h'.stops_gap _)
  obtain ⟨rfl, rfl⟩ := ht h' hvalue (hafter.stops_number hr) (hafter'.stops_number hr')
  obtain ⟨rfl, -⟩ := eq_of_run_append (List.append_cancel_left hvalue) hafter hafter'
    (fun c hc => (Bool.or_eq_false_iff.1 (hr c hc)).2)
    (fun c hc => (Bool.or_eq_false_iff.1 (hr' c hc)).2)
  exact ⟨rfl, rfl⟩

theorem determined_member {name : String} {before q after : List Char} (hbefore : IsGap before)
    (hname : IsQuoted name q) (hafter : IsGap after) (ht : (Phrase.element j).Determined t) :
    (Phrase.member (name, j)).Determined (before ++ (q ++ (after ++ ':' :: t))) := by
  have hquote : ∀ {s : String} {q : List Char}, IsQuoted s q → ∀ r, ∀ c ∈ (q ++ r).head?,
      isGap c = false := fun h r => Spells.stops_gap (.string h) r
  intro m' t' r r' h' heq hr hr'
  cases h' with
  | member hbefore' hname' hafter' h' =>
  simp only [List.append_assoc, List.cons_append] at heq
  obtain ⟨rfl, hrest⟩ :=
    eq_of_run_append heq hbefore hbefore' (hquote hname _) (hquote hname' _)
  obtain ⟨rfl, rfl⟩ := hname.determines hname' hrest (fun _ _ => rfl) (fun _ _ => rfl)
  have hcolon : ∀ {x : List Char}, ∀ c ∈ (':' :: x).head?, isGap c = false := by
    rintro x c ⟨⟩
    rfl
  obtain ⟨rfl, hvalue⟩ :=
    eq_of_run_append (List.append_cancel_left hrest) hafter hafter' hcolon hcolon
  obtain ⟨rfl, rfl⟩ := ht h' (List.cons.inj hvalue).2 hr hr'
  exact ⟨rfl, rfl⟩

end Step

theorem Spells.determined {p : Phrase} {t : List Char} (h : Spells p t) : p.Determined t := by
  induction h with
  | null =>
    refine determined_of_lead .null fun h' hlead => ?_
    cases h' with
    | null => exact ⟨rfl, rfl⟩
    | _ => cases hlead
  | yes =>
    refine determined_of_lead .yes fun h' hlead => ?_
    cases h' with
    | yes => exact ⟨rfl, rfl⟩
    | _ => cases hlead
  | no =>
    refine determined_of_lead .no fun h' hlead => ?_
    cases h' with
    | no => exact ⟨rfl, rfl⟩
    | _ => cases hlead
  | number h =>
    intro j' t' r r' h' heq hr hr'
    have hlead := lead_eq (.number h) h' heq
    cases h' with
    | number h' =>
      obtain ⟨hn, ht⟩ := h.determines h' heq hr hr'
      cases hn
      exact ⟨rfl, ht⟩
    | _ => cases hlead
  | string h =>
    intro j' t' r r' h' heq hr hr'
    have hlead := lead_eq (.string h) h' heq
    cases h' with
    | string h' =>
      obtain ⟨rfl, ht⟩ := h.determines h' heq (fun _ _ => rfl) (fun _ _ => rfl)
      exact ⟨rfl, ht⟩
    | _ => cases hlead
  | emptyArray hgap => exact determined_array (.inl ⟨rfl, hgap⟩)
  | array h ih => exact determined_array (.inr ⟨h, ih⟩)
  | emptyObject hgap => exact determined_object (.inl ⟨rfl, hgap⟩)
  | object h ih => exact determined_object (.inr ⟨h, ih⟩)
  | element hbefore h hafter ih => exact determined_element hbefore h hafter ih
  | lastElement h ih => exact ih.last commas_elements (by decide)
  | moreElements h hs ih ihs => exact ih.cons ihs commas_elements (by decide)
  | member hbefore hname hafter h ih => exact determined_member hbefore hname hafter ih
  | lastMember h ih => exact ih.last commas_members (by decide)
  | moreMembers h hs ih ihs => exact ih.cons ihs commas_members (by decide)

/-- **A text has one value at most.** -/
theorem IsText.unique {j j' : Json} {text : List Char} (h : IsText j text) (h' : IsText j' text) :
    j = j' := by
  have hend : text ++ [] = text ++ [] := rfl
  exact (Spells.determined h h' hend (by simp) (by simp)).1

end Json

end StagingAudit
