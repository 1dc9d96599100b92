import StagingAudit.Json.Writer
import StagingAudit.Proofs.Json.Uniqueness

/-!
# What is written is JSON

**The text of a value is one of its texts** (`Json.isText_render`), and so of no other value
(`Json.isText_render_iff`). This holds of every value: no character, no number and no empty list is
written in a way that would not be read back as it was.

The pieces are those of the writer: a character is escaped as the grammar allows it, the digits of
a decimal keep a zero in front to themselves, and the line breaks and the indentation are white
space.
-/

namespace StagingAudit

namespace Json

/-! ## Texts between quotation marks -/

/-- Two hexadecimal digits write the control characters. -/
theorem codeUnit?_hexDigit {n : Nat} (h : n < 0x20) :
    codeUnit? '0' '0' (hexDigit (n / 16)) (hexDigit (n % 16)) = some n := by
  have hall : ∀ n < 0x20, codeUnit? '0' '0' (hexDigit (n / 16)) (hexDigit (n % 16)) = some n := by
    decide
  exact hall n h

theorem isWritten_escapeChar (c : Char) : IsWritten c (escapeChar c) := by
  have hshort : ∀ {d letter : Char}, c = d → (letter, d) ∈ shortEscapes →
      IsWritten c ['\\', letter] := by
    rintro d letter rfl h
    exact .escape (.short h)
  rw [escapeChar]
  split_ifs with hquote hescape hback htab hline hfeed hreturn hcontrol
  · exact hshort hquote (by decide)
  · exact hshort hescape (by decide)
  · exact hshort hback (by decide)
  · exact hshort htab (by decide)
  · exact hshort hline (by decide)
  · exact hshort hfeed (by decide)
  · exact hshort hreturn (by decide)
  · exact .escape (.code (codeUnit?_hexDigit hcontrol))
  · exact .plain (by omega) hquote hescape

theorem areWritten_escapeChar (cs : List Char) : AreWritten cs (cs.flatMap escapeChar) := by
  induction cs with
  | nil => exact .nil
  | cons c cs ih => exact .cons (isWritten_escapeChar c) ih

theorem isQuoted_quote (s : String) : IsQuoted s (quote s) := .mk (areWritten_escapeChar s.toList)

/-! ## Numbers

The digits of a decimal are written without a point, and then the point is put in. There may be
fewer digits than there are to be behind the point, so zeros are put in front. The grammar allows a
zero in front only where it is the whole part before the point. This is so: zeros are put in front
only as far as there is one digit before the point. -/

/-- The digits of a number start with a zero only if it is the number. -/
theorem eq_zero_of_head?_toDigits {n : Nat} (h : (Nat.toDigits 10 n).head? = some '0') : n = 0 := by
  induction n using Nat.strongRecOn with
  | ind n ih =>
    rcases Nat.lt_or_ge n 10 with hlt | hge
    · have hsmall : ∀ n < 10, [n.digitChar].head? = some '0' → n = 0 := by decide
      rw [Nat.toDigits_of_lt_base hlt] at h
      exact hsmall n hlt h
    · rw [Nat.toDigits_of_base_le (by omega) hge,
        List.head?_append_of_ne_nil _ Nat.toDigits_ne_nil] at h
      have hzero := ih (n / 10) (by omega) h
      omega

theorem isDigits_toDigits (n : Nat) : IsDigits (Nat.toDigits 10 n) :=
  ⟨Nat.toDigits_ne_nil, fun _ hc => Nat.isDigit_of_mem_toDigits (by omega) (by omega) hc⟩

theorem isWhole_toDigits (n : Nat) : IsWhole (Nat.toDigits 10 n) := by
  refine ⟨isDigits_toDigits n, fun h => ?_⟩
  obtain rfl := eq_zero_of_head?_toDigits h
  rfl

/-- The digits of a decimal, with zeros in front if there would be none before the point. -/
def padded (n places : Nat) : List Char :=
  List.replicate (places + 1 - (Nat.toDigits 10 n).length) '0' ++ Nat.toDigits 10 n

theorem isDigits_padded (n places : Nat) : IsDigits (padded n places) := by
  refine ⟨List.append_ne_nil_of_right_ne_nil _ Nat.toDigits_ne_nil, fun c hc => ?_⟩
  rcases List.mem_append.1 hc with hc | hc
  · rw [(List.mem_replicate.1 hc).2]
    rfl
  · exact (isDigits_toDigits n).2 c hc

/-- Zeros in front do not count. -/
theorem ofDigitChars_padded (n places : Nat) : Nat.ofDigitChars 10 (padded n places) 0 = n := by
  rw [padded, Nat.ofDigitChars_append, Nat.ofDigitChars_replicate_zero, Nat.mul_zero,
    Nat.ofDigitChars_ten_toDigits]

theorem lt_length_padded (n places : Nat) : places < (padded n places).length := by
  rw [padded, List.length_append, List.length_replicate]
  omega

/-- Before the point a zero stands by itself: with zeros in front there is one digit only. -/
theorem isWhole_take_padded (n places : Nat) :
    IsWhole ((padded n places).take ((padded n places).length - places)) := by
  have hlen := lt_length_padded n places
  refine ⟨⟨?_, fun c hc => (isDigits_padded n places).2 c (List.mem_of_mem_take hc)⟩, fun h => ?_⟩
  · rw [← List.length_pos_iff, List.length_take]
    omega
  · rw [List.head?_take, if_neg (by omega)] at h
    rcases Nat.eq_zero_or_pos (places + 1 - (Nat.toDigits 10 n).length) with hnone | hsome
    · rw [padded, hnone, List.replicate_zero, List.nil_append] at h hlen ⊢
      obtain rfl := eq_zero_of_head?_toDigits h
      obtain rfl : places = 0 := by
        rw [Nat.toDigits_zero, List.length_singleton] at hlen
        omega
      rfl
    · have hone : (padded n places).length - places = 1 := by
        rw [padded, List.length_append, List.length_replicate]
        omega
      obtain ⟨d, ds, hcons, -⟩ := (isDigits_padded n places).exists_cons
      rw [hone, hcons, List.take_succ_cons, List.take_zero]
      rw [hcons, List.head?_cons, Option.some.injEq] at h
      rw [h]

theorem scaled_zero (mantissa : Int) (places : Nat) :
    scaled mantissa places 0 = (mantissa, places) := by
  simp [scaled]

/-- A decimal is written as its sign, the digits before the point and the digits behind it. -/
theorem isNumber_decimal (mantissa : Int) (places : Nat) :
    IsNumber (mantissa, places) (decimal mantissa places) := by
  obtain ⟨sign, mark, hsign, hplus, hvalue, hmark⟩ : ∃ sign mark, IsSign sign mark ∧ mark ≠ ['+'] ∧
      sign * mantissa.natAbs = mantissa ∧ (if mantissa < 0 then ['-'] else []) = mark := by
    by_cases h : mantissa < 0
    · exact ⟨-1, ['-'], .minus, by decide, by omega, if_pos h⟩
    · exact ⟨1, [], .none, by decide, by omega, if_neg h⟩
  by_cases hplaces : places = 0
  · subst hplaces
    have hnumber := IsNumber.mk hsign hplus (isWhole_toDigits mantissa.natAbs) .none .none
    rw [List.append_nil, Nat.ofDigitChars_ten_toDigits, hvalue, List.length_nil, scaled_zero]
      at hnumber
    simpa [decimal, hmark] using hnumber
  · have hlen := lt_length_padded mantissa.natAbs places
    have hbehind : IsDigits ((padded mantissa.natAbs places).drop
        ((padded mantissa.natAbs places).length - places)) := by
      refine ⟨?_, fun c hc => (isDigits_padded _ _).2 c (List.mem_of_mem_drop hc)⟩
      rw [← List.length_pos_iff, List.length_drop]
      omega
    have hnumber := IsNumber.mk hsign hplus (isWhole_take_padded mantissa.natAbs places)
      (.point hbehind) .none
    rw [List.take_append_drop, ofDigitChars_padded, hvalue, List.length_drop,
      Nat.sub_sub_self hlen.le, scaled_zero] at hnumber
    simpa [decimal, padded, hplaces, hmark] using hnumber

/-! ## White space -/

theorem isGap_newline (depth : Nat) : IsGap (newline depth) := by
  intro c hc
  rcases List.mem_cons.1 hc with rfl | hc
  · rfl
  · rw [(List.mem_replicate.1 hc).2]
    rfl

theorem isGap_nil : IsGap [] := fun _ hc => absurd hc List.not_mem_nil

theorem isGap_space : IsGap [' '] := fun _ hc => List.mem_singleton.1 hc ▸ rfl

/-- A value on a line of its own, with white space behind it. -/
theorem spells_indented {j : Json} {t : List Char} (h : Spells (.value j) t) (depth : Nat)
    {gap : List Char} (hgap : IsGap gap) : Spells (.element j) (newline depth ++ t ++ gap) := by
  rw [List.append_assoc]
  exact .element (isGap_newline depth) h hgap

/-- A member on a line of its own, with white space behind it. -/
theorem spells_member {j : Json} {t : List Char} (h : Spells (.value j) t) (name : String)
    (depth : Nat) {gap : List Char} (hgap : IsGap gap) :
    Spells (.member (name, j)) (newline depth ++ quote name ++ [':', ' '] ++ t ++ gap) := by
  have hvalue : Spells (.element j) ([' '] ++ (t ++ gap)) := .element isGap_space h hgap
  have hmember := Spells.member (isGap_newline depth) (isQuoted_quote name) isGap_nil hvalue
  simpa using hmember

/-! ## Values

The writer puts a line break and an indentation before each item, and before the closing bracket;
the grammar has white space on both sides of an item. So the white space behind an item is empty
before a comma, and is that of the closing bracket behind the last one. For this the rest of a list
is stated behind any first item. The lemmas are mutual because the writer is. -/

mutual

theorem spells_pretty (depth : Nat) : ∀ j : Json, Spells (.value j) (pretty depth j)
  | null => .null
  | bool true => .yes
  | bool false => .no
  | number mantissa places => .number (isNumber_decimal mantissa places)
  | string s => .string (isQuoted_quote s)
  | array [] => .emptyArray isGap_nil
  | array (item :: items) => by
    have hitem := spells_pretty (depth + 1) item
    obtain ⟨t, ht, heq⟩ :=
      exists_spells_items depth items fun _ => spells_indented hitem (depth + 1)
    have harray := Spells.array ht
    rw [← heq] at harray
    simpa [pretty] using harray
  | object [] => .emptyObject isGap_nil
  | object ((name, value) :: members) => by
    have hvalue := spells_pretty (depth + 1) value
    obtain ⟨t, ht, heq⟩ :=
      exists_spells_members depth members fun _ => spells_member hvalue name (depth + 1)
    have hobject := Spells.object ht
    rw [← heq] at hobject
    simpa [pretty] using hobject

/-- The rest of a list goes on behind an item and closes the bracket. -/
theorem exists_spells_items (depth : Nat) : ∀ (items : List Json) {j : Json} {t : List Char},
    (∀ gap, IsGap gap → Spells (.element j) (t ++ gap)) →
      ∃ ts, Spells (.elements (j :: items)) ts ∧ t ++ prettyItems depth items = ts ++ [']']
  | [], _, _, h => ⟨_, .lastElement (h _ (isGap_newline depth)), by simp [prettyItems]⟩
  | item :: items, _, t, h => by
    have hitem := spells_pretty (depth + 1) item
    obtain ⟨ts, hts, heq⟩ :=
      exists_spells_items depth items fun _ => spells_indented hitem (depth + 1)
    refine ⟨t ++ ',' :: ts, .moreElements (by simpa using h [] isGap_nil) hts, ?_⟩
    rw [List.append_assoc, List.cons_append, ← heq]
    simp [prettyItems]

/-- The rest of an object goes on behind a member and closes the brace. -/
theorem exists_spells_members (depth : Nat) : ∀ (members : List (String × Json))
    {m : String × Json} {t : List Char}, (∀ gap, IsGap gap → Spells (.member m) (t ++ gap)) →
      ∃ ts, Spells (.members (m :: members)) ts ∧ t ++ prettyMembers depth members = ts ++ ['\x7d']
  | [], _, _, h => ⟨_, .lastMember (h _ (isGap_newline depth)), by simp [prettyMembers]⟩
  | (name, value) :: members, _, t, h => by
    have hvalue := spells_pretty (depth + 1) value
    obtain ⟨ts, hts, heq⟩ :=
      exists_spells_members depth members fun _ => spells_member hvalue name (depth + 1)
    refine ⟨t ++ ',' :: ts, .moreMembers (by simpa using h [] isGap_nil) hts, ?_⟩
    rw [List.append_assoc, List.cons_append, ← heq]
    simp [prettyMembers]

end

/-- **The text of a value is one of its texts.** -/
theorem isText_render (j : Json) : IsText j j.render.toList := by
  have htext : IsText j ([] ++ (pretty 0 j ++ [])) :=
    .element isGap_nil (spells_pretty 0 j) isGap_nil
  rwa [List.nil_append, List.append_nil, ← String.toList_ofList (l := pretty 0 j)] at htext

/-- And of no other value. -/
theorem isText_render_iff {j k : Json} : IsText k j.render.toList ↔ k = j := by
  refine ⟨fun h => h.unique (isText_render j), ?_⟩
  rintro rfl
  exact isText_render k

example : (array [string "\"\\\n\x01é😀", number (-5) 3, array []]).render =
    "[\n  \"\\\"\\\\\\n\\u0001é😀\",\n  -0.005,\n  []\n]" := by
  decide +kernel

end Json

end StagingAudit
