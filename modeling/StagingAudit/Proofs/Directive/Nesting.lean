import StagingAudit.Proofs.Directive.Extent

/-!
# Directives inside directives

Each pass looks for one kind of bracket and knows nothing of the others. A directive may stand
inside one of another kind, between its brackets: then it is no matter which of them is blanked
first. `WellNested` says that directives of different kinds meet in no other way.

**Over a well-nested text passes may change places** (`WellNested.runPasses_perm`). Two passes are
followed side by side (`Abreast`): where one of them meets a directive, the other one blanks parts
of its inside at most, and so neither its ends nor what the pass makes of it. What a pass leaves is
well nested again, and a text that is cut where no directive is hit is stripped part by part
(`Separate.runPasses_append`).
-/

namespace StagingAudit

/-- Two extents are apart, or one of them stands in the other, between its brackets. -/
def Extent.Nests (s t : Extent) : Prop :=
  s.stop ≤ t.start ∨ t.stop ≤ s.start ∨
    (s.start + 2 ≤ t.start ∧ t.stop + 2 ≤ s.stop) ∨ (t.start + 2 ≤ s.start ∧ s.stop + 2 ≤ t.stop)

theorem Extent.Nests.symm {s t : Extent} (h : s.Nests t) : t.Nests s := by
  rcases h with h | h | h | h
  · exact .inr (.inl h)
  · exact .inl h
  · exact .inr (.inr (.inr h))
  · exact .inr (.inr (.inl h))

/-- Directives of different kinds, found in a text that starts at `offset`, nest. -/
def WellNested (offset : Nat) (cs : List Char) : Prop :=
  ∀ d e : Directive, d ≠ e → ∀ s ∈ d.extents offset cs, ∀ t ∈ e.extents offset cs, s.Nests t

instance (s t : Extent) : Decidable (s.Nests t) := inferInstanceAs (Decidable (_ ∨ _))

/-- The kinds of directive, as stripping takes them. -/
def Directive.kinds : List Directive := [.block, .expression, .comment]

theorem Directive.mem_kinds (d : Directive) : d ∈ kinds := by cases d <;> simp [kinds]

instance (offset : Nat) (cs : List Char) : Decidable (WellNested offset cs) :=
  decidable_of_iff (∀ d ∈ Directive.kinds, ∀ e ∈ Directive.kinds, d ≠ e →
      ∀ s ∈ d.extents offset cs, ∀ t ∈ e.extents offset cs, s.Nests t)
    ⟨fun h d e => h d d.mem_kinds e e.mem_kinds, fun h d _ e _ => h d e⟩

/-- The text that passes leave, one after the other. -/
def runPasses (order : List Directive) (raw : List Char) : List Char :=
  order.foldl (fun text d => d.strip text) raw

@[simp]
theorem runPasses_cons (d : Directive) (order : List Directive) (raw : List Char) :
    runPasses (d :: order) raw = runPasses order (d.strip raw) := rfl

/-! ## A directive under another pass

At a directive that one pass finds, the other pass can find directives inside it, behind it, or
across one of its ends. Only those across an end do harm, for with them goes one of its brackets.
`Encloses` is the case that there are none: the other pass then takes the opening bracket, the
inside and the closing bracket each by itself, and leaves a directive of the first kind. -/

namespace Directive

variable {d e : Directive} {offset : Nat}

/-- Blanking parts of the inside leaves a whole directive. -/
theorem Whole.of_masks {body body' : List Char}
    (h : d.Whole (d.opener ++ (body ++ d.closer))) (hmask : Masks body body') :
    d.Whole (d.opener ++ (body' ++ d.closer)) := by
  obtain ⟨inner, hinner, hfirst⟩ := h
  obtain ⟨rfl, -⟩ := List.append_inj' (List.append_cancel_left hinner) rfl
  refine ⟨body', rfl, fun u v huv => ?_⟩
  have hend : Masks (body ++ d.closer) (u ++ (d.closer ++ v)) := by
    rw [← huv]
    exact hmask.append (.refl _)
  obtain ⟨u', v', heq, -, hv⟩ := hend.split_around closer_ne_nil fun c => isBlank_of_mem_closer
  obtain rfl := hfirst u' v' heq
  cases hv
  rfl

/-- A text too short for two brackets is left as it is. -/
theorem strip_of_byteLength_lt {cs : List Char} (h : byteLength cs < 4) : d.strip cs = cs := by
  refine @strip_of_extents_eq_nil d 0 cs (List.eq_nil_iff_forall_not_mem.2 fun s hs => ?_)
  obtain ⟨-, hroom, hstop⟩ := bounds_of_mem_extents hs
  omega

/-- A directive at the start of a text whose brackets the directives of another kind respect. Each
of those that are found in the whole text, be it in the directive or behind it, stands between its
brackets or apart from it. -/
structure Encloses (d e : Directive) (offset : Nat) (span after : List Char) : Prop where
  whole : d.Whole span
  nests : ∀ t ∈ e.extents offset (span ++ after),
    Extent.Nests ⟨offset, offset + byteLength span⟩ t

namespace Encloses

variable {span after : List Char}

/-- What the other pass finds lies strictly inside or behind. -/
theorem inside_or_behind (h : d.Encloses e offset span after) {t : Extent}
    (ht : t ∈ e.extents offset (span ++ after)) :
    (offset + 2 ≤ t.start ∧ t.stop + 2 ≤ offset + byteLength span) ∨
      offset + byteLength span ≤ t.start := by
  obtain ⟨hstart, hroom, -⟩ := bounds_of_mem_extents ht
  rcases h.nests t ht with hn | hn | hn | hn
  all_goals dsimp only at hn
  · exact .inr hn
  · omega
  · exact .inl hn
  · omega

theorem apart (h : d.Encloses e offset span after) : e.Apart offset span after := by
  intro t ht
  have := h.inside_or_behind ht
  omega

/-- What the other pass finds in the directive lies between its brackets. -/
theorem inside (h : d.Encloses e offset span after) {t : Extent} (ht : t ∈ e.extents offset span) :
    offset + 2 ≤ t.start ∧ t.stop + 2 ≤ offset + byteLength span := by
  obtain ⟨-, hroom, hstop⟩ := bounds_of_mem_extents ht
  have := h.inside_or_behind (mem_extents_append ht after)
  omega

/-- The other pass leaves the directive a directive, and goes on behind it. -/
theorem exists_strip (h : d.Encloses e offset span after) :
    ∃ span', d.Whole span' ∧ Masks span span' ∧
      e.strip (span ++ after) = span' ++ e.strip after := by
  have happart := h.apart
  have hinside : ∀ t ∈ e.extents offset span,
      offset + 2 ≤ t.start ∧ t.stop + 2 ≤ offset + byteLength span := fun t ht => h.inside ht
  have hwhole := h.whole
  obtain ⟨body, rfl, -⟩ := h.whole
  simp only [byteLength_append, byteLength_opener, byteLength_closer] at hinside
  -- the other pass takes opening bracket, inside and closing bracket each by itself
  have hopen : e.Apart offset d.opener (body ++ d.closer) := by
    intro t ht
    rw [byteLength_opener]
    exact .inr (hinside t ht).1
  have hclose : e.Apart (offset + 2) body d.closer := by
    intro t ht
    have hmem : t ∈ e.extents offset (d.opener ++ (body ++ d.closer)) := by
      rw [hopen.extents_append, byteLength_opener]
      exact List.mem_append_right _ ht
    have := hinside t hmem
    omega
  have hstrip : e.strip (d.opener ++ (body ++ d.closer)) =
      d.opener ++ (e.strip body ++ d.closer) := by
    rw [hopen.strip_append, hclose.strip_append, @strip_of_byteLength_lt e d.opener (by simp),
      @strip_of_byteLength_lt e d.closer (by simp)]
  refine ⟨d.opener ++ (e.strip body ++ d.closer), hwhole.of_masks (masks_strip e body), ?_, ?_⟩
  · rw [← hstrip]
    exact masks_strip e _
  · rw [happart.strip_append, hstrip]

end Encloses

end Directive

/-! ## Two passes side by side

Of two passes the second one reads a text that the first one has changed, so they cannot be compared
one after the other. They are followed over the same text at once: at each place one of them finds a
directive, which encloses what the other one finds in it, or neither finds any. `Abreast` records
such a walk, and what is to be shown of the two orders is shown by induction on it.

A text is also looked at up to the closing bracket of a directive that it stands in. The text
`behind` is what follows then; it can hold anything as long as no directive reaches into it. -/

/-- The directives of two kinds nest in a text that starts at `offset`, and none of them reaches
into what is behind it. -/
structure Nested (d e : Directive) (behind : List Char) (offset : Nat) (cs : List Char) : Prop where
  left : d.Apart offset cs behind
  right : e.Apart offset cs behind
  nests : ∀ s ∈ d.extents offset cs, ∀ t ∈ e.extents offset cs, s.Nests t

namespace Nested

open Directive

variable {d e : Directive} {behind : List Char} {offset : Nat}

theorem symm {cs : List Char} (h : Nested d e behind offset cs) : Nested e d behind offset cs :=
  ⟨h.right, h.left, fun t ht s hs => (h.nests s hs t ht).symm⟩

/-- A directive at the start encloses what the other pass finds in it, and behind it directives
nest. -/
theorem of_whole {span after : List Char} (h : Nested d e behind offset (span ++ after))
    (hwhole : d.Whole span) :
    d.Encloses e offset span after ∧ Nested d e behind (offset + byteLength span) after := by
  have hnests := h.nests
  rw [extents_whole hwhole] at hnests
  have hencl : d.Encloses e offset span after := ⟨hwhole, hnests _ List.mem_cons_self⟩
  refine ⟨hencl, h.left.of_whole hwhole, h.right.drop hencl.apart, fun s hs t ht => ?_⟩
  refine hnests s (List.mem_cons_of_mem _ hs) t ?_
  rw [hencl.apart.extents_append]
  exact List.mem_append_right _ ht

theorem of_cons {c : Char} {rest : List Char} (h : Nested d e behind offset (c :: rest))
    (hd : d.span? (c :: rest) = none) (he : e.span? (c :: rest) = none) :
    Nested d e behind (offset + c.utf8Size) rest := by
  refine ⟨h.left.of_cons hd, h.right.of_cons he, fun s hs t ht => ?_⟩
  refine h.nests s ?_ t ?_
  · rwa [extents_cons hd]
  · rwa [extents_cons he]

end Nested

/-- Two passes go side by side over a text that starts at `offset` and has `behind` behind it. -/
inductive Abreast (d e : Directive) (behind : List Char) : Nat → List Char → Prop where
  /-- nothing is left -/
  | nil (offset : Nat) : Abreast d e behind offset []
  /-- the first pass meets a directive, which encloses what the second one finds in it -/
  | left {offset : Nat} {span after : List Char} : d.Encloses e offset span after →
      Abreast d e behind (offset + byteLength span) after →
      Abreast d e behind offset (span ++ after)
  /-- the second pass meets a directive, which encloses what the first one finds in it -/
  | right {offset : Nat} {span after : List Char} : e.Encloses d offset span after →
      Abreast d e behind (offset + byteLength span) after →
      Abreast d e behind offset (span ++ after)
  /-- neither of them meets one -/
  | keep {offset : Nat} {c : Char} {rest : List Char} : d.span? (c :: (rest ++ behind)) = none →
      e.span? (c :: (rest ++ behind)) = none → Abreast d e behind (offset + c.utf8Size) rest →
      Abreast d e behind offset (c :: rest)

namespace Abreast

open Directive

variable {d e : Directive} {behind cs : List Char} {offset : Nat}

/-- Passes whose directives nest go side by side. -/
theorem of_nested (h : Nested d e behind offset cs) : Abreast d e behind offset cs := by
  -- on the length: each step goes behind a directive of either kind, or one character on
  induction hlen : cs.length using Nat.strong_induction_on generalizing offset cs with
  | _ n ih =>
    subst hlen
    cases hleft : d.span? cs with
    | some found =>
      obtain ⟨span, after⟩ := found
      obtain ⟨hwhole, rfl⟩ := span?_eq_some_iff.1 hleft
      obtain ⟨hencl, hrest⟩ := h.of_whole hwhole
      exact .left hencl (ih _ (length_lt_of_span? hleft) hrest rfl)
    | none =>
      cases hright : e.span? cs with
      | some found =>
        obtain ⟨span, after⟩ := found
        obtain ⟨hwhole, rfl⟩ := span?_eq_some_iff.1 hright
        obtain ⟨hencl, hrest⟩ := h.symm.of_whole hwhole
        exact .right hencl (ih _ (length_lt_of_span? hright) hrest.symm rfl)
      | none =>
        cases cs with
        | nil => exact .nil offset
        | cons c rest =>
          refine .keep (h.left.span?_eq_none hleft) (h.right.span?_eq_none hright) ?_
          exact ih _ (by simp) (h.of_cons hleft hright) rfl

/-- Blanking a directive that encloses what another pass finds comes to the same before and after
that pass. -/
theorem strip_comm_whole {span after : List Char} (h : d.Encloses e offset span after)
    (hafter : d.strip (e.strip after) = e.strip (d.strip after)) :
    d.strip (e.strip (span ++ after)) = e.strip (d.strip (span ++ after)) := by
  obtain ⟨span', hwhole', hmask, hstrip⟩ := h.exists_strip
  rw [hstrip, strip_whole hwhole', strip_whole h.whole, hmask.blank_eq, hafter,
    strip_blank_append fun c hc => isBlank_of_mem_blank hc]

/-- Passes that go side by side may change places. -/
theorem strip_comm (h : Abreast d e behind offset cs) :
    d.strip (e.strip cs) = e.strip (d.strip cs) := by
  induction h with
  | nil offset => simp
  | left hencl _ ih => exact strip_comm_whole hencl ih
  | right hencl _ ih => exact (strip_comm_whole hencl ih.symm).symm
  | @keep offset c rest hd he _ ih =>
    have hd' : d.span? (c :: rest) = none := @span?_eq_none_of_append _ (c :: rest) _ hd
    have he' : e.span? (c :: rest) = none := @span?_eq_none_of_append _ (c :: rest) _ he
    have hd'' := span?_eq_none_of_masks ((masks_strip e rest).keep c) hd'
    have he'' := span?_eq_none_of_masks ((masks_strip d rest).keep c) he'
    rw [strip_cons hd', strip_cons he', strip_cons hd'', strip_cons he'', ih]

/-- What the first pass finds in the text that the second one leaves it finds in the text itself,
unless it lies in what is behind. -/
theorem mem_extents (h : Abreast d e behind offset cs) {s : Extent}
    (hs : s ∈ d.extents offset (e.strip cs ++ e.strip behind)) :
    s ∈ d.extents offset cs ∨ offset + byteLength cs ≤ s.start := by
  induction h with
  | nil offset =>
    obtain ⟨hstart, -, -⟩ := bounds_of_mem_extents hs
    exact .inr hstart
  | @left offset span after hencl _ ih =>
    obtain ⟨span', hwhole', hmask, hstrip⟩ := hencl.exists_strip
    rw [hstrip, List.append_assoc, extents_whole hwhole', hmask.byteLength_eq, List.mem_cons] at hs
    rw [extents_whole hencl.whole, byteLength_append, ← Nat.add_assoc, List.mem_cons, or_assoc]
    exact hs.imp_right ih
  | @right offset span after hencl _ ih =>
    rw [strip_whole hencl.whole, List.append_assoc,
      extents_blank_append fun c hc => isBlank_of_mem_blank hc, byteLength_blank] at hs
    rw [hencl.apart.extents_append, List.mem_append, byteLength_append, ← Nat.add_assoc, or_assoc]
    exact .inr (ih hs)
  | @keep offset c rest hd he _ ih =>
    have hd' : d.span? (c :: rest) = none := @span?_eq_none_of_append _ (c :: rest) _ hd
    have he' : e.span? (c :: rest) = none := @span?_eq_none_of_append _ (c :: rest) _ he
    have hmask : Masks (rest ++ behind) (e.strip rest ++ e.strip behind) :=
      (masks_strip e rest).append (masks_strip e behind)
    rw [strip_cons he', List.cons_append,
      extents_cons (span?_eq_none_of_masks (hmask.keep c) hd)] at hs
    rw [extents_cons hd', byteLength_cons, ← Nat.add_assoc]
    exact ih hs

end Abreast

/-! ## Well-nested texts

There are three passes, and to exchange any two of them the text that the third one leaves has to be
well nested for these. It is, since in that text a pass finds nothing that it does not find in the
text itself (`Separate.mem_extents`). An order is then turned into any other by exchanging
neighbours. -/

/-- A text that starts at `offset` is cut where no directive is hit, and its first part is well
nested. -/
structure Separate (offset : Nat) (a b : List Char) : Prop where
  nested : WellNested offset a
  apart : ∀ d : Directive, d.Apart offset a b

/-- Nothing reaches across the end of a text. -/
theorem WellNested.separate {offset : Nat} {cs : List Char} (h : WellNested offset cs) :
    Separate offset cs [] := by
  refine ⟨h, fun d s hs => .inl ?_⟩
  rw [List.append_nil] at hs
  exact (Directive.bounds_of_mem_extents hs).2.2

namespace Separate

open Directive

variable {offset : Nat} {a b : List Char}

theorem abreast (h : Separate offset a b) {d e : Directive} (hne : d ≠ e) :
    Abreast d e b offset a :=
  .of_nested ⟨h.apart d, h.apart e, h.nested d e hne⟩

/-- What a pass finds in the first part after another pass it finds there before. -/
theorem mem_extents (h : Separate offset a b) {d e : Directive} {s : Extent}
    (hs : s ∈ d.extents offset (e.strip a ++ e.strip b)) :
    s ∈ d.extents offset a ∨ offset + byteLength a ≤ s.start := by
  by_cases hne : d = e
  · subst hne
    rw [← (h.apart d).strip_append, extents_of_not_completeIn (not_completeIn_strip d _)] at hs
    cases hs
  · exact (h.abreast hne).mem_extents hs

end Separate

namespace WellNested

open Directive

variable {offset : Nat} {cs : List Char}

/-- What a well-nested text starts with is well nested. -/
theorem of_append {a b : List Char} (h : WellNested offset (a ++ b)) : WellNested offset a := by
  intro d e hne s hs t ht
  exact h d e hne s (mem_extents_append hs b) t (mem_extents_append ht b)

/-- Two passes over a well-nested text may change places. -/
theorem strip_comm (h : WellNested offset cs) (d e : Directive) :
    d.strip (e.strip cs) = e.strip (d.strip cs) := by
  by_cases hne : d = e
  · rw [hne]
  · exact (h.separate.abreast hne).strip_comm

/-- What a pass leaves of a well-nested text is well nested. -/
theorem strip (h : WellNested offset cs) (e : Directive) : WellNested offset (e.strip cs) := by
  have hmem : ∀ {d : Directive} {s : Extent}, s ∈ d.extents offset (e.strip cs) →
      s ∈ d.extents offset cs := by
    intro d s hs
    obtain ⟨-, hroom, hstop⟩ := bounds_of_mem_extents hs
    rw [(masks_strip e cs).byteLength_eq] at hstop
    rcases h.separate.mem_extents (by simpa using hs) with hs | hstart
    · exact hs
    · omega
  intro d d' hne s hs t ht
  exact h d d' hne s (hmem hs) t (hmem ht)

/-- **Over a well-nested text passes may change places.** -/
theorem runPasses_perm (h : WellNested offset cs) {order order' : List Directive}
    (hperm : order.Perm order') : runPasses order cs = runPasses order' cs := by
  induction hperm generalizing cs with
  | nil => rfl
  | cons d _ ih => exact ih (h.strip d)
  | swap d e order => rw [runPasses_cons, runPasses_cons, h.strip_comm d e]; rfl
  | trans _ _ ih ih' => exact (ih h).trans (ih' h)

end WellNested

namespace Separate

open Directive

variable {offset : Nat} {a b : List Char}

/-- A pass keeps the parts separate. -/
theorem strip (h : Separate offset a b) (e : Directive) :
    Separate offset (e.strip a) (e.strip b) := by
  refine ⟨h.nested.strip e, fun d s hs => ?_⟩
  rw [(masks_strip e a).byteLength_eq]
  refine (h.mem_extents hs).imp_left fun hs => ?_
  exact (bounds_of_mem_extents hs).2.2

/-- Passes go over separate parts as if each stood alone. -/
theorem runPasses_append (h : Separate offset a b) (order : List Directive) :
    runPasses order (a ++ b) = runPasses order a ++ runPasses order b := by
  induction order generalizing a b with
  | nil => rfl
  | cons d order ih =>
    rw [runPasses_cons, (h.apart d).strip_append, ih (h.strip d)]
    rfl

/-- Separate parts that are well nested make up a well-nested text. -/
theorem wellNested_append (h : Separate offset a b)
    (hb : WellNested (offset + byteLength a) b) : WellNested offset (a ++ b) := by
  intro d e hne s hs t ht
  rw [(h.apart d).extents_append, List.mem_append] at hs
  rw [(h.apart e).extents_append, List.mem_append] at ht
  rcases hs with hs | hs <;> rcases ht with ht | ht
  · exact h.nested d e hne s hs t ht
  · exact .inl ((bounds_of_mem_extents hs).2.2.trans (bounds_of_mem_extents ht).1)
  · exact .inr (.inl ((bounds_of_mem_extents ht).2.2.trans (bounds_of_mem_extents hs).1))
  · exact hb d e hne s hs t ht

end Separate

end StagingAudit
