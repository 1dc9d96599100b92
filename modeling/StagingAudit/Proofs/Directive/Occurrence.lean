import StagingAudit.Proofs.Directive.Masking

/-!
# Searches in a text and in its mask

The same search runs over a raw text and over its stripped form. What it looks for here has no
brace in it, so each occurrence in the raw text has been kept whole or blanked whole
(`Masks.kept_or_hidden`); an occurrence in the stripped text may also be pieced together across a
directive. **The two searches find the same bytes exactly when they are undisturbed**: no directive
reaches into the first occurrence of the stripped text, and none before it hides one of its own.
-/

namespace StagingAudit

/-! ## What becomes of a part without braces

A blanked stretch starts and ends at braces. A part that has none can lie within such a stretch,
but neither end of the stretch can lie within the part. So it has been kept whole, or it is blank
now. -/

namespace Masks

variable {raw out : List Char}

/-- A part of the raw text without braces has been kept whole, or it stands inside a stretch that
was opened before it, and is blank now. -/
theorem kept_or_hidden (h : Masks raw out) {before part after : List Char}
    (hraw : raw = before ++ (part ++ after)) (hne : part ≠ []) (hpart : ∀ c ∈ braces, c ∉ part) :
    (∃ before' after', out = before' ++ (part ++ after') ∧ Masks before before' ∧
      Masks after after') ∨
    '\x7b' ∈ before ∧ ∃ before' after', out = before' ++ (blank part ++ after') ∧
      byteLength before' = byteLength before := by
  induction h generalizing before part with
  | nil => exact absurd (List.append_eq_nil_iff.1 (List.append_eq_nil_iff.1 hraw.symm).2).1 hne
  | @keep raw out c hmask ih =>
    cases before with
    | cons b before =>
      obtain ⟨rfl, rfl⟩ := List.cons.inj hraw
      rcases ih rfl hne hpart with
        ⟨before', after', rfl, hbefore, hafter⟩ | ⟨hmem, before', after', rfl, hlen⟩
      · exact .inl ⟨c :: before', after', rfl, .keep c hbefore, hafter⟩
      · refine .inr ⟨List.mem_cons_of_mem c hmem, c :: before', after', rfl, ?_⟩
        rw [byteLength_cons, byteLength_cons, hlen]
    | nil =>
      cases part with
      | nil => exact absurd rfl hne
      | cons d part =>
        obtain ⟨rfl, rfl⟩ := List.cons.inj hraw
        by_cases hnil : part = []
        · subst hnil
          exact .inl ⟨[], out, rfl, .nil, hmask⟩
        · -- the rest of the part cannot be hidden, since nothing stands before it
          have hpart' : ∀ b ∈ braces, b ∉ part :=
            fun b hb hmem => hpart b hb (List.mem_cons_of_mem c hmem)
          rcases @ih [] part rfl hnil hpart' with
            ⟨before', after', rfl, hbefore, hafter⟩ | ⟨hmem, -⟩
          · obtain rfl : before' = [] := eq_nil_of_byteLength hbefore.byteLength_eq
            exact .inl ⟨[], after', rfl, .nil, hafter⟩
          · cases hmem
  | @span raw out inner hmask ih =>
    rcases append_split hraw with ⟨more, rfl, hrest⟩ | ⟨more, hmore, hspan, hrest⟩
    · rcases ih hrest hne hpart with
        ⟨before', after', rfl, hbefore, hafter⟩ | ⟨hmem, before', after', rfl, hlen⟩
      · refine .inl ⟨blank ('\x7b' :: (inner ++ ['\x7d'])) ++ before', after', ?_,
          .span inner hbefore, hafter⟩
        rw [List.append_assoc]
      · refine .inr ⟨List.mem_append_right _ hmem,
          blank ('\x7b' :: (inner ++ ['\x7d'])) ++ before', after', ?_, ?_⟩
        · rw [List.append_assoc]
        · rw [byteLength_append, byteLength_append, byteLength_blank, hlen]
    · -- the part starts inside the stretch and has to end before the stretch is closed
      obtain ⟨mid, rfl, -⟩ := @exists_concat_of_append _ ('\x7b' :: inner) before more '\x7d'
        (by simpa using hspan) hmore
      have hsplit : part ++ after = mid ++ '\x7d' :: raw := by simpa using hrest
      obtain ⟨mid', rfl, rfl⟩ := exists_append_of_not_mem hsplit (hpart _ (by simp [braces]))
      refine .inr ⟨?_, blank before, blank (mid' ++ ['\x7d']) ++ out, ?_, ?_⟩
      · cases before with
        | nil =>
          exfalso
          cases part with
          | nil => exact hne rfl
          | cons d part =>
            obtain ⟨rfl, -⟩ := List.cons.inj hspan
            exact hpart '\x7b' (by simp [braces]) (by simp)
        | cons b before =>
          obtain ⟨rfl, -⟩ := List.cons.inj hspan
          simp
      · rw [hspan]
        simp
      · rw [byteLength_blank]

/-- What stands before a place changes at most from a closing brace to a space. -/
theorem edge_lastChar {edge : Option Char → Bool} (hedge : edge (some '\x7d') = edge (some ' '))
    (h : Masks raw out) {prev prev' : Option Char} (hprev : edge prev = edge prev') :
    edge (lastChar prev raw) = edge (lastChar prev' out) := by
  induction h generalizing prev prev' with
  | nil => exact hprev
  | keep c _ ih =>
    rw [lastChar_cons, lastChar_cons]
    exact ih rfl
  | span inner _ ih =>
    rw [lastChar_append, lastChar_append, ← List.cons_append, lastChar_concat, blank_append,
      show blank ['\x7d'] = [' '] from rfl, lastChar_concat]
    exact ih hedge

/-- A mask that changes no byte changes nothing. -/
theorem eq_of_encode_eq (h : Masks raw out) (hbytes : encode raw = encode out) : raw = out := by
  induction h with
  | nil => rfl
  | keep c _ ih =>
    rw [encode_cons, encode_cons] at hbytes
    rw [ih (List.append_cancel_left hbytes)]
  | span inner _ _ =>
    obtain ⟨hbrace, -⟩ := List.cons.inj hbytes
    exact absurd hbrace (by decide)

/-- Behind the same byte of a kept character the raw text is masked by the rest. -/
theorem of_kept {a a' rest rest' : List Char} {c : Char} (h : Masks (a ++ rest) (a' ++ c :: rest'))
    (hc : isBlank c = false) (hlen : byteLength a = byteLength (a' ++ [c])) : Masks rest rest' := by
  obtain ⟨before, after, hraw, hbefore, hafter⟩ := h.split_at hc
  have hsplit : a ++ rest = (before ++ [c]) ++ after := by simpa using hraw
  obtain ⟨-, rfl⟩ := eq_of_byteLength_eq hsplit (by simpa [hbefore.byteLength_eq] using hlen)
  exact hafter

end Masks

/-! ## Occurrences -/

/-- `r` takes the bytes from `i` to `j` of a text. -/
def StandsAt (r : Option Char → Recogniser) (text : List Char) (i j : Nat) : Prop :=
  ∃ before taken rest, text = before ++ (taken ++ rest) ∧
    r (lastChar none before) (taken ++ rest) = some rest ∧
    byteLength before = i ∧ byteLength before + byteLength taken = j

/-- The bytes that the leftmost success of `r` in a text takes. -/
def firstSpan? (r : Option Char → Recogniser) (text : List Char) : Option (Nat × Nat) :=
  (scan? r none text).map fun (before, rest) =>
    (byteLength before, byteLength text - byteLength rest)

/-- A shape of text that a search looks for: a part without braces from a character that blanking
changes to a parenthesis, behind a suitable character. The ends are such that it can be told from
the bytes of an occurrence whether it has been blanked, and without braces it cannot have been
blanked in part. -/
structure Shape (r : Option Char → Recogniser) where
  /-- whether the shape may stand behind a character, or at the start of a text -/
  edge : Option Char → Bool
  /-- whether a text has the shape -/
  Takes : List Char → Prop
  /-- the recogniser takes the shape where it may stand -/
  eq_some_iff : ∀ {prev : Option Char} {cs rest : List Char},
    r prev cs = some rest ↔ edge prev = true ∧ ∃ taken, Takes taken ∧ cs = taken ++ rest
  /-- blanking a directive before a place does not change whether the shape may stand there -/
  edge_brace : edge (some '\x7d') = edge (some ' ')
  /-- both ends of the shape are changed by blanking -/
  exists_eq : ∀ {taken : List Char}, Takes taken →
    ∃ c inner, taken = c :: (inner ++ ['(']) ∧ isBlank c = false
  /-- the shape has no brace -/
  brace_not_mem : ∀ {taken : List Char}, Takes taken → ∀ c ∈ braces, c ∉ taken

/-- At most one occurrence starts at an offset. -/
theorem StandsAt.end_unique {r : Option Char → Recogniser} {text : List Char} {i j j' : Nat}
    (h : StandsAt r text i j) (h' : StandsAt r text i j') : j = j' := by
  obtain ⟨before, taken, rest, rfl, hr, rfl, rfl⟩ := h
  obtain ⟨before', taken', rest', htext, hr', hlen, rfl⟩ := h'
  obtain ⟨rfl, htail⟩ := eq_of_byteLength_eq htext hlen.symm
  rw [← htail, hr] at hr'
  cases hr'
  rw [List.append_cancel_right htail]

/-- A blank text shares no byte with the start of a text that is not blank. -/
theorem encode_ne_of_isBlank {c : Char} {cs space : List Char} (hc : isBlank c = false)
    (hspace : ∀ d ∈ space, isBlank d = true) : encode (c :: cs) ≠ encode space := by
  intro heq
  obtain ⟨b, hb⟩ := List.exists_mem_of_ne_nil (String.utf8EncodeChar c) (by simp)
  have hmem : b ∈ encode space := by
    rw [← heq, encode_cons]
    exact List.mem_append_left _ hb
  obtain ⟨d, hd, hbd⟩ := List.mem_flatMap.1 hmem
  have hblank := hspace d hd
  simp only [isBlank, Bool.or_eq_true, beq_iff_eq] at hblank
  have hbyte : b = 0x20 ∨ b = 0x0A ∨ b = 0x0D := by
    rcases hblank with (rfl | rfl) | rfl
    · exact .inl (List.mem_singleton.1 hbd)
    · exact .inr (.inl (List.mem_singleton.1 hbd))
    · exact .inr (.inr (List.mem_singleton.1 hbd))
  rcases hbyte with rfl | rfl | rfl
  all_goals
    rw [eq_of_mem_encodeChar hb (by decide)] at hc
    cases hc

namespace Shape

variable {r : Option Char → Recogniser} {text raw out : List Char} {i j : Nat}

/-- An occurrence is the shape behind a suitable character. -/
theorem standsAt_iff (s : Shape r) :
    StandsAt r text i j ↔ ∃ before taken rest, text = before ++ (taken ++ rest) ∧
      s.edge (lastChar none before) = true ∧ s.Takes taken ∧ byteLength before = i ∧
      byteLength before + byteLength taken = j := by
  refine ⟨?_, ?_⟩
  · rintro ⟨before, taken, rest, rfl, hr, hi, hj⟩
    obtain ⟨hedge, taken', htakes, heq⟩ := s.eq_some_iff.1 hr
    obtain rfl := List.append_cancel_right heq
    exact ⟨before, taken, rest, rfl, hedge, htakes, hi, hj⟩
  · rintro ⟨before, taken, rest, rfl, hedge, htakes, hi, hj⟩
    exact ⟨before, taken, rest, rfl, s.eq_some_iff.2 ⟨hedge, taken, htakes, rfl⟩, hi, hj⟩

/-- A search that fails leaves no occurrence. -/
theorem firstSpan?_eq_none_iff (s : Shape r) :
    firstSpan? r text = none ↔ ∀ i j, ¬StandsAt r text i j := by
  rw [firstSpan?, Option.map_eq_none_iff, scan?_eq_none_iff]
  refine ⟨?_, ?_⟩
  · rintro hnone i j ⟨before, taken, rest, rfl, hr, -, -⟩
    rw [hnone before _ rfl] at hr
    cases hr
  · intro hnone before tail htext
    cases hr : r (lastChar none before) tail with
    | none => rfl
    | some rest =>
      obtain ⟨-, taken, -, rfl⟩ := s.eq_some_iff.1 hr
      exact absurd ⟨before, taken, rest, htext, hr, rfl, rfl⟩ (hnone _ _)

/-- A search finds the first occurrence. -/
theorem firstSpan?_eq_some_iff (s : Shape r) :
    firstSpan? r text = some (i, j) ↔
      StandsAt r text i j ∧ ∀ i' j', StandsAt r text i' j' → i ≤ i' := by
  have hfound : ∀ {i j}, firstSpan? r text = some (i, j) →
      StandsAt r text i j ∧ ∀ i' j', StandsAt r text i' j' → i ≤ i' := by
    intro i j h
    obtain ⟨⟨before, rest⟩, hscan, he⟩ := Option.map_eq_some_iff.1 h
    cases he
    obtain ⟨tail, rfl, hr, hfirst⟩ := scan?_eq_some_iff.1 hscan
    obtain ⟨-, taken, -, rfl⟩ := s.eq_some_iff.1 hr
    refine ⟨⟨before, taken, rest, rfl, hr, rfl, by simp; omega⟩, ?_⟩
    rintro i' j' ⟨before', taken', rest', htext, hr', rfl, -⟩
    rcases append_split htext with ⟨more, rfl, -⟩ | ⟨more, hmore, rfl, htail⟩
    · simp
    · rw [htail, hfirst before' more rfl hmore] at hr'
      cases hr'
  refine ⟨hfound, fun ⟨hstands, hleast⟩ => ?_⟩
  cases hspan : firstSpan? r text with
  | none => exact absurd hstands (s.firstSpan?_eq_none_iff.1 hspan i j)
  | some span =>
    obtain ⟨i', j'⟩ := span
    obtain ⟨hstands', hleast'⟩ := hfound hspan
    obtain rfl : i = i' := Nat.le_antisymm (hleast i' j' hstands') (hleast' i j hstands)
    rw [hstands.end_unique hstands']

/-- At most one occurrence ends at an offset, if the shape never stands at the end of itself. -/
theorem start_unique (s : Shape r) {i' : Nat}
    (hsuffix : ∀ {u taken}, s.Takes (u ++ taken) → s.Takes taken → u = [])
    (h : StandsAt r text i j) (h' : StandsAt r text i' j) : i = i' := by
  obtain ⟨before, taken, rest, rfl, -, htakes, rfl, rfl⟩ := s.standsAt_iff.1 h
  obtain ⟨before', taken', rest', htext, -, htakes', rfl, hj⟩ := s.standsAt_iff.1 h'
  rw [← List.append_assoc, ← List.append_assoc] at htext
  obtain ⟨hfront, -⟩ := eq_of_byteLength_eq htext (by simpa using hj.symm)
  rcases List.append_eq_append_iff.1 hfront with ⟨more, rfl, rfl⟩ | ⟨more, rfl, rfl⟩
  · rw [hsuffix htakes htakes', List.append_nil]
  · rw [hsuffix htakes' htakes, List.append_nil]

/-! ## Occurrences under a mask

The two texts are compared in one direction and in the other. An occurrence in the raw text that has
been blanked differs from the mask in its first byte, since the shape starts with a character that
is not blank; one whose bytes are those of the mask has been kept. An occurrence in the mask has its
first and its last character from the raw text, since blanking writes neither, and the mask splits
at both; only what is between them may have been something else. -/

/-- An occurrence in the raw text is one in its mask, byte for byte, or it is hidden: its bytes
are not those of the mask, which is blank there. -/
theorem kept_or_hidden (s : Shape r) (h : Masks raw out) (hraw : StandsAt r raw i j) :
    StandsAt r out i j ∧ bytesBetween raw i j = bytesBetween out i j ∨
    bytesBetween raw i j ≠ bytesBetween out i j ∧ ∃ before space after,
      out = before ++ (space ++ after) ∧ space ≠ [] ∧ (∀ c ∈ space, isBlank c = true) ∧
      byteLength before = i ∧ byteLength before + byteLength space = j := by
  obtain ⟨before, taken, rest, rfl, hedge, htakes, rfl, rfl⟩ := s.standsAt_iff.1 hraw
  obtain ⟨c, inner, htaken, hc⟩ := s.exists_eq htakes
  have hne : taken ≠ [] := by simp [htaken]
  rcases h.kept_or_hidden rfl hne (s.brace_not_mem htakes) with
    ⟨before', rest', rfl, hbefore, hrest⟩ | ⟨-, before', rest', rfl, hlen⟩
  · have hlen := hbefore.byteLength_eq
    refine .inl ⟨s.standsAt_iff.2 ⟨before', taken, rest', rfl, ?_, htakes, hlen, by rw [hlen]⟩, ?_⟩
    · rw [← hbefore.edge_lastChar s.edge_brace rfl, hedge]
    · rw [bytesBetween_append, ← hlen, bytesBetween_append]
  · have hblank : ∀ d ∈ blank taken, isBlank d = true := fun d hd => isBlank_of_mem_blank hd
    refine .inr ⟨?_, before', blank taken, rest', rfl, ?_, hblank, hlen, ?_⟩
    · have hbytes := @bytesBetween_append before' (blank taken) rest'
      rw [byteLength_blank, hlen] at hbytes
      rw [bytesBetween_append, hbytes, htaken]
      exact encode_ne_of_isBlank hc (htaken ▸ hblank)
    · intro hnil
      have hzero := byteLength_blank taken
      rw [hnil] at hzero
      exact hne (eq_nil_of_byteLength hzero.symm)
    · rw [byteLength_blank, hlen]

/-- An occurrence in the raw text that reads the same in the mask is one there. -/
theorem standsAt_of_raw (s : Shape r) (h : Masks raw out) (hraw : StandsAt r raw i j)
    (hbytes : bytesBetween raw i j = bytesBetween out i j) : StandsAt r out i j := by
  rcases s.kept_or_hidden h hraw with ⟨hout, -⟩ | ⟨hne, -⟩
  · exact hout
  · exact absurd hbytes hne

/-- An occurrence in the mask that reads the same in the raw text is one there. -/
theorem standsAt_of_mask (s : Shape r) (h : Masks raw out) (hout : StandsAt r out i j)
    (hbytes : bytesBetween raw i j = bytesBetween out i j) : StandsAt r raw i j := by
  obtain ⟨before, taken, rest, rfl, hedge, htakes, rfl, rfl⟩ := s.standsAt_iff.1 hout
  obtain ⟨c, inner, rfl, hc⟩ := s.exists_eq htakes
  -- both ends of the shape have been kept, and the mask splits there
  have hmask : Masks raw (before ++ c :: (inner ++ '(' :: rest)) := by simpa using h
  obtain ⟨before', tail, rfl, hbefore, htail⟩ := hmask.split_at hc
  obtain ⟨inner', rest', rfl, hinner, hrest⟩ := htail.split_at (by decide)
  have hpart : Masks (c :: (inner' ++ ['('])) (c :: (inner ++ ['('])) :=
    .keep c (hinner.append (.refl _))
  have hraw : before' ++ c :: (inner' ++ '(' :: rest') =
      before' ++ ((c :: (inner' ++ ['('])) ++ rest') := by simp
  rw [bytesBetween_append, hraw, hbefore.byteLength_eq, hpart.byteLength_eq,
    bytesBetween_append] at hbytes
  rw [hraw, hpart.eq_of_encode_eq hbytes]
  refine s.standsAt_iff.2 ⟨before', _, rest', rfl, ?_, htakes, hbefore.byteLength_eq.symm, ?_⟩
  · rw [hbefore.edge_lastChar s.edge_brace rfl, hedge]
  · rw [hbefore.byteLength_eq]

/-- An occurrence in the raw text that starts where one in the mask does has been kept. -/
theorem bytesBetween_eq_of_start (s : Shape r) (h : Masks raw out) {j' : Nat}
    (hraw : StandsAt r raw i j) (hout : StandsAt r out i j') :
    bytesBetween raw i j = bytesBetween out i j := by
  rcases s.kept_or_hidden h hraw with
    ⟨-, hbytes⟩ | ⟨-, before, space, after, rfl, hne, hblank, hi, -⟩
  · exact hbytes
  · -- the mask is blank where its own occurrence would start
    exfalso
    obtain ⟨before', taken, rest, htext, -, htakes, hi', -⟩ := s.standsAt_iff.1 hout
    obtain ⟨c, inner, rfl, hc⟩ := s.exists_eq htakes
    obtain ⟨-, htail⟩ := eq_of_byteLength_eq htext (hi.trans hi'.symm)
    cases space with
    | nil => exact hne rfl
    | cons d space =>
      obtain ⟨rfl, -⟩ := List.cons.inj htail
      rw [hblank d (by simp)] at hc
      cases hc

/-- An occurrence in the raw text that ends where one in the mask does has been kept. -/
theorem bytesBetween_eq_of_end (s : Shape r) (h : Masks raw out) {i' : Nat}
    (hraw : StandsAt r raw i j) (hout : StandsAt r out i' j) :
    bytesBetween raw i j = bytesBetween out i j := by
  rcases s.kept_or_hidden h hraw with
    ⟨-, hbytes⟩ | ⟨-, before, space, after, rfl, hne, hblank, -, hj⟩
  · exact hbytes
  · -- the mask is blank where its own occurrence would end
    exfalso
    obtain ⟨before', taken, rest, htext, -, htakes, -, hj'⟩ := s.standsAt_iff.1 hout
    obtain ⟨c, inner, rfl, -⟩ := s.exists_eq htakes
    have hsplit : (before ++ space) ++ after = (before' ++ (c :: inner ++ ['('])) ++ rest := by
      rw [List.append_assoc, htext]
      simp
    obtain ⟨hfront, -⟩ := eq_of_byteLength_eq hsplit (by simpa using hj.trans hj'.symm)
    have hlast : (before' ++ c :: inner) ++ ['('] = before ++ space := by simpa using hfront.symm
    obtain ⟨space', rfl, -⟩ := exists_concat_of_append hlast hne
    exact absurd (hblank '(' (by simp)) (by decide)

end Shape

/-! ## When the searches agree

A search stops at the first occurrence. The two searches stop at the same place when the one in the
mask is an occurrence in the raw text as well and no other one comes before it there. An occurrence
that comes before it and reads the same in the mask would be the first one of the mask, so only
hidden ones have to be excluded. Both conditions are needed: without the first the search in the raw
text passes the place, without the second it stops too early. -/

/-- Nothing was blanked that changes the search for `r`. This is said in terms of bytes, since it
has to make sense of an occurrence in either text that need not be one in the other. -/
structure Undisturbed (r : Option Char → Recogniser) (raw out : List Char) : Prop where
  /-- the first occurrence in the mask reads the same in the raw text -/
  intact : ∀ i j, firstSpan? r out = some (i, j) → bytesBetween raw i j = bytesBetween out i j
  /-- and so does every occurrence in the raw text that comes before it -/
  unhidden : ∀ i j, StandsAt r raw i j → (∀ i' j', firstSpan? r out = some (i', j') → i < i') →
    bytesBetween raw i j = bytesBetween out i j

namespace Shape

variable {r : Option Char → Recogniser} {raw out : List Char}

/-- The searches take the same bytes exactly when nothing disturbs them. -/
theorem firstSpan?_eq_iff (s : Shape r) (h : Masks raw out) :
    firstSpan? r raw = firstSpan? r out ↔ Undisturbed r raw out := by
  refine ⟨?_, ?_⟩
  · intro heq
    refine ⟨fun i j hspan => ?_, fun i j hraw hbefore => ?_⟩
    · obtain ⟨hraw, -⟩ := s.firstSpan?_eq_some_iff.1 (heq.trans hspan)
      obtain ⟨hout, -⟩ := s.firstSpan?_eq_some_iff.1 hspan
      exact s.bytesBetween_eq_of_start h hraw hout
    · -- nothing stands before the first occurrence, in the raw text as in the mask
      exfalso
      cases hspan : firstSpan? r out with
      | none => exact s.firstSpan?_eq_none_iff.1 (heq.trans hspan) i j hraw
      | some span =>
        obtain ⟨i', j'⟩ := span
        have hlt := hbefore i' j' hspan
        have hle := (s.firstSpan?_eq_some_iff.1 (heq.trans hspan)).2 i j hraw
        omega
  · intro hsame
    cases hspan : firstSpan? r out with
    | none =>
      rw [s.firstSpan?_eq_none_iff]
      intro i j hraw
      have hbytes := hsame.unhidden i j hraw fun i' j' hsome => by rw [hspan] at hsome; cases hsome
      exact s.firstSpan?_eq_none_iff.1 hspan i j (s.standsAt_of_raw h hraw hbytes)
    | some span =>
      obtain ⟨i, j⟩ := span
      obtain ⟨hout, hleast⟩ := s.firstSpan?_eq_some_iff.1 hspan
      refine s.firstSpan?_eq_some_iff.2
        ⟨s.standsAt_of_mask h hout (hsame.intact i j hspan), fun i' j' hraw => ?_⟩
      by_contra hlt
      have hbytes := hsame.unhidden i' j' hraw fun i'' j'' hsome => by
        rw [hspan] at hsome
        cases hsome
        omega
      exact hlt (hleast i' j' (s.standsAt_of_raw h hraw hbytes))

/-- Searches that find occurrences alike in `f` find the same one, if `f` tells an occurrence in
the raw text and one in the mask apart. -/
theorem firstSpan?_eq_of_map (s : Shape r) {f : Nat × Nat → Nat}
    (hf : ∀ {i j i' j'}, StandsAt r raw i j → StandsAt r out i' j' → f (i, j) = f (i', j') →
      (i, j) = (i', j'))
    (heq : (firstSpan? r raw).map f = (firstSpan? r out).map f) :
    firstSpan? r raw = firstSpan? r out := by
  cases hraw : firstSpan? r raw with
  | none =>
    rw [hraw, Option.map_none, eq_comm, Option.map_eq_none_iff] at heq
    rw [heq]
  | some span =>
    rw [hraw, Option.map_some, eq_comm, Option.map_eq_some_iff] at heq
    obtain ⟨span', hout, hspan⟩ := heq
    obtain ⟨hstands, -⟩ := s.firstSpan?_eq_some_iff.1 hraw
    obtain ⟨hstands', -⟩ := s.firstSpan?_eq_some_iff.1 hout
    rw [hout]
    exact congrArg some (hf hstands hstands' hspan.symm)

/-- Searches whose first occurrences start together find the same one. -/
theorem firstSpan?_eq_of_start (s : Shape r) (h : Masks raw out)
    (heq : (firstSpan? r raw).map (·.1) = (firstSpan? r out).map (·.1)) :
    firstSpan? r raw = firstSpan? r out := by
  refine s.firstSpan?_eq_of_map (fun hstands hstands' hi => ?_) heq
  obtain rfl := hi
  have hkept := s.standsAt_of_raw h hstands (s.bytesBetween_eq_of_start h hstands hstands')
  rw [hstands'.end_unique hkept]

/-- Searches whose first occurrences end together find the same one, if the shape never stands at
the end of itself. -/
theorem firstSpan?_eq_of_end (s : Shape r) (h : Masks raw out)
    (hsuffix : ∀ {u taken}, s.Takes (u ++ taken) → s.Takes taken → u = [])
    (heq : (firstSpan? r raw).map (·.2) = (firstSpan? r out).map (·.2)) :
    firstSpan? r raw = firstSpan? r out := by
  refine s.firstSpan?_eq_of_map (fun hstands hstands' hj => ?_) heq
  obtain rfl := hj
  have hkept := s.standsAt_of_raw h hstands (s.bytesBetween_eq_of_end h hstands hstands')
  rw [s.start_unique hsuffix hkept hstands']

end Shape

end StagingAudit
