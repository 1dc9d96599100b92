import StagingAudit.Proofs.Directive.Nesting

/-!
# The order of the passes

Three passes can be run in six orders. The brackets of the three kinds differ, yet a directive of
one kind may hold a bracket of another whose partner stands outside. The pass that runs first then
takes a bracket away from the other one, which goes on to look for the next.

**All orders give the same text exactly when directives nest**, for a text and everything it starts
with (`orderFree_iff_wellNested`). Where a directive at the start of a text is cut by one of another
kind, its first character tells the orders apart: one of them blanks it and the other leaves it.
-/

namespace StagingAudit

/-- The passes leave the same text in whatever order they run. -/
def OrderFree (raw : List Char) : Prop :=
  ∀ order : List Directive, order.Perm Directive.kinds → runPasses order raw = stripDirectives raw

/-- Stripping is one of the orders. -/
theorem runPasses_kinds (raw : List Char) : runPasses Directive.kinds raw = stripDirectives raw :=
  rfl

/-- The passes over a well-nested text may run in any order. -/
theorem WellNested.orderFree {offset : Nat} {cs : List Char} (h : WellNested offset cs) :
    OrderFree cs := by
  intro order hperm
  rw [← runPasses_kinds, h.runPasses_perm hperm]

/-- What follows a separate part has the freedom that the text has. -/
theorem Separate.orderFree {offset : Nat} {a b : List Char} (h : Separate offset a b)
    (hfree : OrderFree (a ++ b)) : OrderFree b := by
  intro order hperm
  have heq := hfree order hperm
  rw [← runPasses_kinds, h.runPasses_append, h.runPasses_append, runPasses_kinds,
    h.nested.orderFree order hperm] at heq
  exact List.append_cancel_left heq

/-! ## A directive cut by another

Two orders are told apart by a directive at the start of a text. If its own pass goes first, its
first brace is blanked. If another pass goes first and takes the closing bracket along, the
directive is not found any more, and the brace stays. A bracket further on could still close it,
though. This is why a text is looked at together with all that it starts with: up to the place where
both directives have ended nothing else can close the first one. -/

namespace Directive

variable {d e : Directive} {offset : Nat} {span after : List Char}

theorem opener_injective (h : d.opener = e.opener) : d = e := by
  cases d <;> cases e <;> first | rfl | cases h

/-- A directive starts with a brace. -/
theorem Whole.exists_eq_cons (h : d.Whole span) : ∃ tail, span = '\x7b' :: tail := by
  obtain ⟨body, rfl, -⟩ := h
  obtain ⟨c, hc⟩ := exists_opener_eq d
  rw [hc]
  exact ⟨_, rfl⟩

/-- At a directive no pass of another kind finds one. -/
theorem Whole.span?_eq_none (h : d.Whole span) (hne : e ≠ d) (after : List Char) :
    e.span? (span ++ after) = none := by
  rw [← Option.not_isSome_iff_eq_none, span?_isSome_iff]
  rintro ⟨inner, rest, heq⟩
  obtain ⟨body, rfl, -⟩ := h
  rw [List.append_assoc] at heq
  obtain ⟨hopener, -⟩ := eq_of_byteLength_eq heq (by simp)
  exact hne (opener_injective hopener).symm

/-- A directive ends at the first place where its bracket closes. -/
theorem Whole.byteLength_le (h : d.Whole span) {inner rest : List Char}
    (heq : span ++ after = d.opener ++ (inner ++ (d.closer ++ rest))) :
    byteLength span ≤ 2 + (byteLength inner + 2) := by
  obtain ⟨body, rfl, hfirst⟩ := h
  rw [List.append_assoc] at heq
  have hinner : body ++ d.closer ++ after = (inner ++ d.closer) ++ rest := by
    rw [List.append_assoc inner]
    exact List.append_cancel_left heq
  simp only [byteLength_append, byteLength_opener, byteLength_closer]
  by_contra hlt
  obtain ⟨more, hmore, -⟩ := exists_append_of_byteLength_le hinner (by
    simp only [byteLength_append, byteLength_closer]
    omega)
  obtain rfl := hfirst inner more (by rw [hmore, List.append_assoc])
  have := congrArg byteLength hmore
  simp only [byteLength_append, byteLength_closer, byteLength_nil] at this
  omega

/-- A directive that is cut by the last one of another kind is no longer found once that one is
blanked. -/
theorem span?_strip_eq_none (h : d.Whole span) {t : Extent}
    (ht : t ∈ e.extents offset (span ++ after))
    (hcut : ¬Extent.Nests ⟨offset, offset + byteLength span⟩ t)
    (hlast : after = [] ∨ t.stop = offset + byteLength (span ++ after)) :
    d.span? (e.strip (span ++ after)) = none := by
  rw [← Option.not_isSome_iff_eq_none, span?_isSome_iff]
  rintro ⟨inner, rest, heq⟩
  have hmask := masks_strip e (span ++ after)
  have hlen := hmask.byteLength_eq
  -- neither bracket of what is left meets the blanked stretch
  have hopen := outside_of_mem_extents ht (heq.trans (List.nil_append _).symm) opener_ne_nil
    fun c => isBlank_of_mem_opener
  have hclose := outside_of_mem_extents ht (heq.trans (List.append_assoc ..).symm) closer_ne_nil
    fun c => isBlank_of_mem_closer
  rw [heq] at hmask hlen
  obtain ⟨inner', rest', hraw, hinner⟩ := exists_of_masks hmask
  have hspan := h.byteLength_le hraw
  rw [← hinner.byteLength_eq] at hspan
  obtain ⟨hstart, hroom, -⟩ := bounds_of_mem_extents ht
  apply hcut
  simp only [Extent.Nests]
  simp only [byteLength_append, byteLength_opener, byteLength_closer, byteLength_nil]
    at hopen hclose hlen hlast
  rcases hlast with rfl | hlast
  · rw [byteLength_nil] at hlen
    omega
  · omega

end Directive

/-! ## Orders told apart -/

/-- Blank text in front of a text is passed over. -/
theorem runPasses_blank_append {space : List Char} (h : ∀ c ∈ space, isBlank c = true)
    (order : List Directive) (cs : List Char) :
    runPasses order (space ++ cs) = space ++ runPasses order cs := by
  induction order generalizing cs with
  | nil => rfl
  | cons d order ih => rw [runPasses_cons, Directive.strip_blank_append h, ih, runPasses_cons]

/-- A character at which no pass finds a directive stays. -/
theorem exists_runPasses_cons {c : Char} {cs : List Char} {order : List Directive}
    (h : ∀ d ∈ order, d.span? (c :: cs) = none) : ∃ out, runPasses order (c :: cs) = c :: out := by
  induction order generalizing cs with
  | nil => exact ⟨cs, rfl⟩
  | cons d order ih =>
    rw [runPasses_cons, Directive.strip_cons (h d List.mem_cons_self)]
    apply ih
    intro e he
    exact Directive.span?_eq_none_of_masks ((Directive.masks_strip d cs).keep c)
      (h e (List.mem_cons_of_mem d he))

namespace Directive

variable {d e : Directive} {offset : Nat} {span after : List Char}

/-- Two kinds and the third one are all. -/
theorem exists_third (hne : d ≠ e) : ∃ f, f ≠ d ∧ [d, e, f].Perm kinds := by
  cases d <;> cases e
  all_goals first
    | exact absurd rfl hne
    | exact ⟨.block, by decide, by decide⟩
    | exact ⟨.expression, by decide, by decide⟩
    | exact ⟨.comment, by decide, by decide⟩

/-- If another pass makes a directive unfindable, it matters which of the two runs first. The first
character tells: it is blank when the pass for the directive comes first, and still the brace when
the other one does, since the third pass finds no directive there either. -/
theorem not_orderFree (h : d.Whole span) (hne : d ≠ e)
    (hnone : d.span? (e.strip (span ++ after)) = none) : ¬OrderFree (span ++ after) := by
  intro hfree
  obtain ⟨f, hf, hperm⟩ := exists_third hne
  have hfirst : runPasses [d, e, f] (span ++ after) =
      blank span ++ runPasses [e, f] (d.strip after) := by
    rw [runPasses_cons, strip_whole h,
      runPasses_blank_append fun c hc => isBlank_of_mem_blank hc]
  obtain ⟨tail, hspan⟩ := h.exists_eq_cons
  have hsecond : ∃ out, runPasses [e, d, f] (span ++ after) = '\x7b' :: out := by
    have he : e.span? (span ++ after) = none := h.span?_eq_none hne.symm after
    have hf' : f.span? (e.strip (span ++ after)) = none :=
      span?_eq_none_of_masks (masks_strip e _) (h.span?_eq_none hf after)
    rw [runPasses_cons]
    rw [hspan, List.cons_append] at he hf' hnone ⊢
    rw [strip_cons he] at hf' hnone ⊢
    refine exists_runPasses_cons fun g hg => ?_
    rcases List.mem_pair.1 hg with rfl | rfl
    · exact hnone
    · exact hf'
  obtain ⟨out, hout⟩ := hsecond
  rw [hfree _ hperm] at hfirst
  rw [hfree _ ((List.Perm.swap d e [f]).trans hperm), hfirst, hspan] at hout
  cases hout

/-- If the order never matters up to any place of a text, a directive at its start encloses all
others. -/
theorem encloses_of_orderFree (h : d.Whole span) (hne : d ≠ e)
    (hfree : ∀ p, p <+: span ++ after → OrderFree p) : d.Encloses e offset span after := by
  refine ⟨h, fun t ht => ?_⟩
  by_contra hcut
  -- up to the place where both have ended, the orders differ
  rcases Nat.le_total t.stop (offset + byteLength span) with hle | hle
  · have hmem := mem_extents_of_stop_le ht hle
    rw [← List.append_nil span] at hmem
    refine not_orderFree h hne (span?_strip_eq_none h hmem hcut (.inl rfl)) (hfree _ ?_)
    rw [List.append_nil]
    exact List.prefix_append _ _
  · obtain ⟨before, span', after', -, heq, -, hstart, hstop, -⟩ := exists_of_mem_extents ht
    rw [← List.append_assoc] at heq
    have hlen : t.stop = offset + byteLength (before ++ span') := by
      rw [byteLength_append]
      omega
    have hmem := ht
    rw [heq] at hmem
    have hmem := mem_extents_of_stop_le hmem hlen.le
    obtain ⟨more, hmore, -⟩ := exists_append_of_byteLength_le heq.symm (by omega)
    rw [hmore] at hmem hlen
    refine not_orderFree h hne (span?_strip_eq_none h hmem hcut (.inr hlen)) (hfree _ ?_)
    rw [heq, ← hmore]
    exact List.prefix_append _ _

/-- The pass of its kind finds a directive and nothing else in it. -/
theorem Whole.extents_eq (h : d.Whole span) :
    d.extents offset span = [⟨offset, offset + byteLength span⟩] := by
  have heq := @extents_whole d offset span h []
  rwa [List.append_nil, extents_nil] at heq

/-- A directive is apart from what follows it. -/
theorem Whole.apart (h : d.Whole span) (after : List Char) : d.Apart offset span after := by
  intro s hs
  rw [extents_whole h, List.mem_cons] at hs
  rcases hs with rfl | hs
  · exact .inl (Nat.le_refl _)
  · exact .inr (bounds_of_mem_extents hs).1

end Directive

/-! ## All orders

Directives nest when the order never matters, by induction on the length. The text starts with a
directive that encloses what the other passes find in it, or with a character at which no pass
finds any. What stands before the closing bracket of the directive is shorter and starts the text
too, so directives nest in it. Behind the directive, or behind the character, the order does not
matter because it does not matter to the whole, and what is put aside is treated by all passes by
itself. -/

/-- Where a text is cut so that the first part is separate from all that the second one starts with,
only the second one is left to look at. -/
theorem wellNested_of_cut {offset : Nat} {a rest : List Char}
    (hcut : ∀ r, r <+: rest → Separate offset a r)
    (hfree : ∀ p, p <+: a ++ rest → OrderFree p)
    (hrest : (∀ r, r <+: rest → OrderFree r) → WellNested (offset + byteLength a) rest) :
    WellNested offset (a ++ rest) := by
  refine (hcut rest (List.prefix_refl rest)).wellNested_append (hrest fun r hr => ?_)
  exact (hcut r hr).orderFree (hfree _ ((List.prefix_append_right_inj a).2 hr))

/-- A directive that encloses what other passes find in it is well nested if what stands before its
closing bracket is. -/
theorem wellNested_of_encloses {d : Directive} {offset : Nat} {front after : List Char}
    (hencl : ∀ e : Directive, d ≠ e → d.Encloses e offset (front ++ d.closer) after)
    (hfront : WellNested offset front) : WellNested offset (front ++ d.closer) := by
  have hself : ∀ e : Directive, d ≠ e → ∀ s ∈ d.extents offset (front ++ d.closer),
      ∀ t ∈ e.extents offset (front ++ d.closer), s.Nests t := by
    intro e hne s hs t ht
    rw [(hencl e hne).whole.extents_eq, List.mem_singleton] at hs
    subst hs
    exact (hencl e hne).nests t (Directive.mem_extents_append ht after)
  have hinside : ∀ e : Directive, d ≠ e → ∀ s ∈ e.extents offset (front ++ d.closer),
      s ∈ e.extents offset front := by
    intro e hne s hs
    have hstop := ((hencl e hne).inside hs).2
    rw [byteLength_append, Directive.byteLength_closer] at hstop
    exact Directive.mem_extents_of_stop_le hs (by omega)
  intro e f hne s hs t ht
  by_cases he : d = e
  · subst he
    exact hself f hne s hs t ht
  · by_cases hf : d = f
    · subst hf
      exact (hself e he t ht s hs).symm
    · exact hfront e f hne s (hinside e he s hs) t (hinside f hf t ht)

/-- A character at which no pass finds a directive is separate. -/
theorem separate_singleton {offset : Nat} {c : Char} {rest : List Char}
    (h : ∀ d : Directive, d.span? (c :: rest) = none) : Separate offset [c] rest := by
  refine ⟨fun d e _ s hs => ?_, fun d s hs => .inr ?_⟩
  · rw [Directive.extents_cons (@Directive.span?_eq_none_of_append d [c] rest (h d)),
      Directive.extents_nil] at hs
    cases hs
  · rw [List.singleton_append, Directive.extents_cons (h d)] at hs
    exact (Directive.bounds_of_mem_extents hs).1

/-- If the order matters neither for a text nor for anything it starts with, directives nest. -/
theorem wellNested_of_orderFree (offset : Nat) {cs : List Char}
    (hfree : ∀ p, p <+: cs → OrderFree p) : WellNested offset cs := by
  -- on the length: behind a directive, up to its closing bracket, or one character on
  induction hlen : cs.length using Nat.strong_induction_on generalizing offset cs with
  | _ n ih =>
    subst hlen
    by_cases hmeets : ∃ d : Directive, (d.span? cs).isSome = true
    · obtain ⟨d, hsome⟩ := hmeets
      obtain ⟨⟨span, after⟩, hspan⟩ := Option.isSome_iff_exists.1 hsome
      obtain ⟨hwhole, rfl⟩ := Directive.span?_eq_some_iff.1 hspan
      have hencl : ∀ e : Directive, d ≠ e → ∀ r, r <+: after → d.Encloses e offset span r :=
        fun e hne r hr => Directive.encloses_of_orderFree hwhole hne fun p hp =>
          hfree p (hp.trans ((List.prefix_append_right_inj span).2 hr))
      have hinner : WellNested offset span := by
        obtain ⟨body, rfl, -⟩ := hwhole
        rw [← List.append_assoc] at hencl ⊢
        refine wellNested_of_encloses (fun e hne => hencl e hne after (List.prefix_refl after)) ?_
        refine ih _ ?_ offset (fun p hp => hfree p (hp.trans ?_)) rfl
        · have := List.length_pos_of_ne_nil (@Directive.closer_ne_nil d)
          simp only [List.length_append]
          omega
        · exact ⟨d.closer ++ after, by simp only [List.append_assoc]⟩
      refine wellNested_of_cut (fun r hr => ⟨hinner, fun e => ?_⟩) hfree fun hrest => ?_
      · by_cases hne : d = e
        · exact hne ▸ hwhole.apart r
        · exact (hencl e hne r hr).apart
      · exact ih _ (Directive.length_lt_of_span? hspan) _ hrest rfl
    · simp only [not_exists, Option.not_isSome_iff_eq_none] at hmeets
      cases cs with
      | nil => exact fun d e _ s hs => by simp at hs
      | cons c rest =>
        refine @wellNested_of_cut offset [c] rest (fun r hr => ?_) hfree fun hrest => ?_
        · obtain ⟨more, rfl⟩ := hr
          exact separate_singleton fun d =>
            @Directive.span?_eq_none_of_append d (c :: r) more (hmeets d)
        · exact ih _ (by simp) _ hrest rfl

/-- **All six orders of the passes give the same text**, for a text and for everything it starts
with, exactly when directives of different kinds nest in it: any two of them are apart, or one of
them stands in the other, between its brackets. -/
theorem orderFree_iff_wellNested (raw : List Char) :
    (∀ p, p <+: raw → ∀ order : List Directive,
      order.Perm [.block, .expression, .comment] → runPasses order p = stripDirectives p) ↔
    WellNested 0 raw := by
  refine ⟨wellNested_of_orderFree 0, ?_⟩
  rintro h p ⟨rest, rfl⟩
  exact h.of_append.orderFree

example : WellNested 0 "\x7b# was \x7b\x7b x \x7d\x7d #\x7d \x7b% set y = 1 %\x7d".toList := by
  decide +kernel

/-- A remark that holds an opening bracket of a value, and a value behind it. -/
def crossedDirectives : List Char :=
  "\x7b# \x7b\x7b #\x7d select 1 \x7b\x7b x \x7d\x7d".toList

/-- Stripping takes the bracket inside the remark for the start of a value, and blanks all up to the
end of the real one. If remarks go first, only the directives are blanked. -/
theorem order_of_passes_matters :
    ¬∀ (raw : List Char) (order : List Directive),
      order.Perm [.block, .expression, .comment] → runPasses order raw = stripDirectives raw := by
  intro h
  have hfirst : runPasses [.comment, .block, .expression] crossedDirectives =
      "         select 1        ".toList := by decide +kernel
  have hlast : stripDirectives crossedDirectives = "\x7b#                       ".toList := by
    decide +kernel
  rw [h crossedDirectives [.comment, .block, .expression] (by decide), hlast] at hfirst
  exact absurd hfirst (by decide +kernel)

end StagingAudit
