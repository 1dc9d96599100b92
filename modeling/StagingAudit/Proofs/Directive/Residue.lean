import StagingAudit.Proofs.Directive.Masking

/-!
# What stripping leaves

A pass looks for opening brackets from left to right and blanks each one that is closed, up to the
first bracket that closes it. `Whole` says what such a stretch looks like, without the search.

**No complete directive of any kind is left** (`stripDirectives_leaves_none`). A pass leaves none of
its own kind, and what the passes after it do cannot bring one back: a mask writes blank characters
only, so every bracket in the end stood there from the start. A second round then finds nothing.
-/

namespace StagingAudit

namespace Directive

variable {d : Directive}

/-! ## Brackets -/

/-- Brackets are not blank. -/
theorem isBlank_of_mem_opener {c : Char} (h : c ∈ d.opener) : isBlank c = false := by
  cases d
  all_goals exact (by decide : ∀ c ∈ opener _, isBlank c = false) c h

theorem isBlank_of_mem_closer {c : Char} (h : c ∈ d.closer) : isBlank c = false := by
  cases d
  all_goals exact (by decide : ∀ c ∈ closer _, isBlank c = false) c h

theorem opener_ne_nil : d.opener ≠ [] := by cases d <;> simp [opener]

theorem closer_ne_nil : d.closer ≠ [] := by cases d <;> simp [closer]

/-- Every kind opens with a brace. -/
theorem exists_opener_eq (d : Directive) : ∃ c, d.opener = ['\x7b', c] := by
  cases d
  all_goals exact ⟨_, rfl⟩

/-! ## Whole directives -/

/-- A stretch is one directive of a kind and nothing more: its brackets stand at its ends, and the
closing one nowhere else behind the opening one. -/
def Whole (d : Directive) (span : List Char) : Prop :=
  ∃ body, span = d.opener ++ (body ++ d.closer) ∧
    ∀ u v, body ++ d.closer = u ++ (d.closer ++ v) → v = []

/-- A pass takes whole directives, whatever stands behind them. -/
theorem span?_eq_some_iff {cs span after : List Char} :
    d.span? cs = some (span, after) ↔ d.Whole span ∧ cs = span ++ after := by
  refine ⟨?_, ?_⟩
  · intro h
    refine ⟨?_, eq_of_span? h⟩
    unfold span? at h
    split at h
    · cases h
    · split at h
      · cases h
      · next body rest hcut =>
        cases h
        exact ⟨body, by rw [List.append_assoc], (cutAt?_eq_some_iff.1 hcut).2⟩
  · rintro ⟨⟨body, rfl, hfirst⟩, rfl⟩
    have hopen : Recogniser.literal d.opener (d.opener ++ (body ++ d.closer) ++ after) =
        some (body ++ (d.closer ++ after)) := by
      rw [Recogniser.literal_eq_some_iff]
      simp only [List.append_assoc]
    have hcut : cutAt? d.closer (body ++ (d.closer ++ after)) = some (body, after) :=
      cutAt?_eq_some_iff.2 ⟨rfl, hfirst⟩
    rw [span?, hopen]
    dsimp only
    rw [hcut]
    dsimp only
    rw [List.append_assoc]

/-- A whole directive at the start of a text is blanked. -/
theorem strip_whole {span : List Char} (h : d.Whole span) (after : List Char) :
    d.strip (span ++ after) = blank span ++ d.strip after :=
  strip_of_span? (span?_eq_some_iff.2 ⟨h, rfl⟩)

/-- Induction along a pass: over the directives that it takes and the characters between them. -/
@[elab_as_elim]
theorem pass_induction (d : Directive) {motive : List Char → Prop} (cs : List Char)
    (nil : motive [])
    (whole : ∀ span after, d.Whole span → motive after → motive (span ++ after))
    (keep : ∀ c rest, d.span? (c :: rest) = none → motive rest → motive (c :: rest)) :
    motive cs := by
  induction hlen : cs.length using Nat.strong_induction_on generalizing cs with
  | _ n ih =>
    subst hlen
    cases hspan : d.span? cs with
    | some found =>
      obtain ⟨span, after⟩ := found
      obtain ⟨hwhole, rfl⟩ := span?_eq_some_iff.1 hspan
      exact whole span after hwhole (ih _ (length_lt_of_span? hspan) after rfl)
    | none =>
      cases cs with
      | nil => exact nil
      | cons c rest => exact keep c rest hspan (ih _ (by simp) rest rfl)

/-- A pass finds a directive at the start of a text exactly when the text opens one there and closes
it somewhere. -/
theorem span?_isSome_iff {cs : List Char} :
    (d.span? cs).isSome = true ↔
      ∃ inner after, cs = d.opener ++ (inner ++ (d.closer ++ after)) := by
  refine ⟨?_, ?_⟩
  · intro h
    obtain ⟨⟨span, after⟩, hspan⟩ := Option.isSome_iff_exists.1 h
    obtain ⟨⟨body, rfl, -⟩, rfl⟩ := span?_eq_some_iff.1 hspan
    exact ⟨body, after, by simp only [List.append_assoc]⟩
  · rintro ⟨inner, after, rfl⟩
    have hopen : Recogniser.literal d.opener (d.opener ++ (inner ++ (d.closer ++ after))) =
        some (inner ++ (d.closer ++ after)) := Recogniser.literal_eq_some_iff.2 rfl
    cases hcut : cutAt? d.closer (inner ++ (d.closer ++ after)) with
    | none => exact absurd rfl (ne_of_cutAt?_eq_none hcut inner after)
    | some found => simp [span?, hopen, hcut]

/-! ## Directives under a mask

A pass leaves no directive of its own kind, but other passes run after it, and their blanks might
join two brackets that did not belong together. They cannot. Brackets are not blank, so those that
are left have stood there from the start, one behind the other. If the raw text has no complete
directive of a kind, then neither has any mask of it (`CompleteIn.of_masks`). -/

/-- A bracket that a masked text opens and closes was opened and closed in the raw text already. -/
theorem exists_of_masks {raw inner after : List Char}
    (h : Masks raw (d.opener ++ (inner ++ (d.closer ++ after)))) :
    ∃ inner' after', raw = d.opener ++ (inner' ++ (d.closer ++ after')) ∧ Masks inner' inner := by
  obtain ⟨before, rest, rfl, hbefore, hrest⟩ :=
    @Masks.split_around _ [] _ _ h opener_ne_nil fun c => isBlank_of_mem_opener
  obtain rfl := hbefore.eq_nil
  obtain ⟨inner', after', rfl, hinner, -⟩ :=
    hrest.split_around closer_ne_nil fun c => isBlank_of_mem_closer
  exact ⟨inner', after', rfl, hinner⟩

/-- A directive that a masked text starts with starts the raw text. -/
theorem span?_isSome_of_masks {raw out : List Char} (h : Masks raw out)
    (hout : (d.span? out).isSome = true) : (d.span? raw).isSome = true := by
  rw [span?_isSome_iff] at hout ⊢
  obtain ⟨inner, after, rfl⟩ := hout
  obtain ⟨inner', after', rfl, -⟩ := exists_of_masks h
  exact ⟨inner', after', rfl⟩

theorem span?_eq_none_of_masks {raw out : List Char} (h : Masks raw out)
    (hraw : d.span? raw = none) : d.span? out = none := by
  rw [← Option.not_isSome_iff_eq_none] at hraw ⊢
  exact fun hout => hraw (span?_isSome_of_masks h hout)

/-- Somewhere in a text a directive of a kind is opened and closed. -/
def CompleteIn (d : Directive) (text : List Char) : Prop :=
  ∃ before inner after, text = before ++ (d.opener ++ (inner ++ (d.closer ++ after)))

/-- A mask opens and closes nothing that was not there. -/
theorem CompleteIn.of_masks {raw out : List Char} (h : Masks raw out) (hout : d.CompleteIn out) :
    d.CompleteIn raw := by
  obtain ⟨before, inner, after, rfl⟩ := hout
  obtain ⟨before', rest, rfl, -, hrest⟩ :=
    h.split_around opener_ne_nil fun c => isBlank_of_mem_opener
  obtain ⟨inner', after', rfl, -, -⟩ :=
    hrest.split_around closer_ne_nil fun c => isBlank_of_mem_closer
  exact ⟨before', inner', after', rfl⟩

/-- Blank text in front completes no directive. -/
theorem CompleteIn.of_blank_append {space cs : List Char} (h : d.CompleteIn (space ++ cs))
    (hspace : ∀ c ∈ space, isBlank c = true) : d.CompleteIn cs := by
  obtain ⟨before, inner, after, heq⟩ := h
  obtain ⟨c, hc⟩ := exists_opener_eq d
  rw [hc, List.cons_append] at heq
  obtain ⟨more, -, rfl⟩ := exists_append_of_not_mem heq (not_mem_of_forall hspace (by decide))
  exact ⟨more, inner, after, by rw [hc]; rfl⟩

/-- A text without a complete directive is left as it is. -/
theorem strip_of_not_completeIn {cs : List Char} (h : ¬d.CompleteIn cs) : d.strip cs = cs := by
  refine strip_eq_self fun before rest hcs => ?_
  rw [← Option.not_isSome_iff_eq_none, span?_isSome_iff]
  rintro ⟨inner, after, rfl⟩
  exact h ⟨before, inner, after, hcs⟩

/-- A pass leaves no complete directive of its kind. Blanks in front complete none, and behind a
character that is kept a directive could only start with it, in what is left as well as in the
text. -/
theorem not_completeIn_strip (d : Directive) (cs : List Char) : ¬d.CompleteIn (d.strip cs) := by
  induction cs using d.pass_induction with
  | nil =>
    rintro ⟨before, inner, after, heq⟩
    rw [strip_nil] at heq
    simp [opener_ne_nil] at heq
  | whole span after hwhole ih =>
    rw [strip_whole hwhole]
    intro hleft
    exact ih (hleft.of_blank_append fun c hc => isBlank_of_mem_blank hc)
  | keep c rest hspan ih =>
    have hmask := masks_strip d (c :: rest)
    rw [strip_cons hspan] at hmask ⊢
    rintro ⟨before, inner, after, heq⟩
    cases before with
    | nil =>
      -- what is left would start with a directive, and so would the text
      have hsome : (d.span? (c :: d.strip rest)).isSome = true :=
        span?_isSome_iff.2 ⟨inner, after, heq⟩
      rw [span?_eq_none_of_masks hmask hspan] at hsome
      cases hsome
    | cons b before =>
      obtain ⟨-, htail⟩ := List.cons.inj heq
      exact ih ⟨before, inner, after, htail⟩

end Directive

/-- The three passes leave no complete directive of any kind. -/
theorem not_completeIn_stripDirectives (d : Directive) (raw : List Char) :
    ¬d.CompleteIn (stripDirectives raw) := by
  intro hleft
  -- back through the passes to the one of its own kind
  cases d with
  | comment => exact Directive.not_completeIn_strip _ _ hleft
  | expression =>
    have hcomment := hleft.of_masks (Directive.masks_strip .comment _)
    exact Directive.not_completeIn_strip _ _ hcomment
  | block =>
    have hcomment := hleft.of_masks (Directive.masks_strip .comment _)
    have hexpression := hcomment.of_masks (Directive.masks_strip .expression _)
    exact Directive.not_completeIn_strip _ _ hexpression

/-- **Stripping leaves nothing to strip.** In the stripped text no opening bracket of any kind has
a closing bracket of that kind at or behind its end, and so a second round changes nothing. -/
theorem stripDirectives_leaves_none (raw : List Char) :
    (∀ (d : Directive) (before inner after : List Char),
      stripDirectives raw ≠ before ++ (d.opener ++ (inner ++ (d.closer ++ after)))) ∧
    stripDirectives (stripDirectives raw) = stripDirectives raw := by
  have hnone := fun d => not_completeIn_stripDirectives d raw
  refine ⟨?_, ?_⟩
  · intro d before inner after heq
    exact hnone d ⟨before, inner, after, heq⟩
  · rw [stripDirectives, Directive.strip_of_not_completeIn (hnone .block),
      Directive.strip_of_not_completeIn (hnone .expression),
      Directive.strip_of_not_completeIn (hnone .comment)]

end StagingAudit
