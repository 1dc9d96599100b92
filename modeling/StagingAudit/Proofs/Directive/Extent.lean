import StagingAudit.Proofs.Directive.Residue

/-!
# Where directives stand

`Directive.extents` lists the byte ranges that a pass blanks, from left to right. A pass goes over
the two parts of a text as if each stood alone **exactly when no extent reaches across the cut**:
`Apart` says that none does, and then both what the pass finds and what it leaves are put together
from the parts (`Apart.extents_append`, `Apart.strip_append`). An extent that ends within the first
part is found there whatever follows (`mem_extents_of_stop_le`).
-/

namespace StagingAudit

/-- A range of bytes, from `start` up to and without `stop`. -/
structure Extent where
  /-- the offset of the first byte -/
  start : Nat
  /-- the offset behind the last byte -/
  stop : Nat
  deriving DecidableEq, Repr

namespace Directive

variable {d : Directive} {offset : Nat}

/-- The ranges of a text that a pass blanks; the text starts at `offset`. -/
def extents (d : Directive) (offset : Nat) (cs : List Char) : List Extent :=
  match _h : d.span? cs with
  | some (span, after) =>
    ⟨offset, offset + byteLength span⟩ :: d.extents (offset + byteLength span) after
  | none =>
    match cs with
    | [] => []
    | c :: rest => d.extents (offset + c.utf8Size) rest
termination_by cs.length
decreasing_by
  · exact length_lt_of_span? (by assumption)
  · simp

@[simp]
theorem extents_nil (d : Directive) (offset : Nat) : d.extents offset [] = [] := by
  rw [extents]
  cases d <;> rfl

theorem extents_whole {span : List Char} (h : d.Whole span) (after : List Char) :
    d.extents offset (span ++ after) =
      ⟨offset, offset + byteLength span⟩ :: d.extents (offset + byteLength span) after := by
  have hspan : d.span? (span ++ after) = some (span, after) := span?_eq_some_iff.2 ⟨h, rfl⟩
  rw [extents]
  split
  · next h' =>
    rw [hspan] at h'
    cases h'
    rfl
  · next h' =>
    rw [hspan] at h'
    cases h'

theorem extents_cons {c : Char} {rest : List Char} (h : d.span? (c :: rest) = none) :
    d.extents offset (c :: rest) = d.extents (offset + c.utf8Size) rest := by
  rw [extents]
  split
  · next h' =>
    rw [h] at h'
    cases h'
  · rfl

/-! ## Bounds -/

@[simp]
theorem byteLength_opener (d : Directive) : byteLength d.opener = 2 := by cases d <;> rfl

@[simp]
theorem byteLength_closer (d : Directive) : byteLength d.closer = 2 := by cases d <;> rfl

/-- A directive has room for its two brackets. -/
theorem Whole.four_le {span : List Char} (h : d.Whole span) : 4 ≤ byteLength span := by
  obtain ⟨body, rfl, -⟩ := h
  simp only [byteLength_append, byteLength_opener, byteLength_closer]
  omega

/-- Extents lie within the text and have room for two brackets. -/
theorem bounds_of_mem_extents {cs : List Char} {s : Extent} (h : s ∈ d.extents offset cs) :
    offset ≤ s.start ∧ s.start + 4 ≤ s.stop ∧ s.stop ≤ offset + byteLength cs := by
  induction cs using d.pass_induction generalizing offset with
  | nil => simp at h
  | whole span after hwhole ih =>
    have hfour := hwhole.four_le
    rw [extents_whole hwhole, List.mem_cons] at h
    rw [byteLength_append]
    rcases h with rfl | h
    · dsimp only
      omega
    · obtain ⟨hstart, hroom, hstop⟩ := ih h
      omega
  | keep c rest hspan ih =>
    rw [extents_cons hspan] at h
    obtain ⟨hstart, hroom, hstop⟩ := ih h
    rw [byteLength_cons]
    omega

/-- A text without a complete directive has no extent. -/
theorem extents_of_not_completeIn {cs : List Char} (h : ¬d.CompleteIn cs) :
    d.extents offset cs = [] := by
  induction cs using d.pass_induction generalizing offset with
  | nil => exact extents_nil d offset
  | whole span after hwhole ih =>
    obtain ⟨body, rfl, -⟩ := hwhole
    exact absurd ⟨[], body, after, by simp⟩ h
  | keep c rest hspan ih =>
    rw [extents_cons hspan]
    apply ih
    rintro ⟨before, inner, after, rfl⟩
    exact h ⟨c :: before, inner, after, rfl⟩

/-- A text without an extent is left as it is. -/
theorem strip_of_extents_eq_nil {cs : List Char} (h : d.extents offset cs = []) :
    d.strip cs = cs := by
  induction cs using d.pass_induction generalizing offset with
  | nil => exact strip_nil d
  | whole span after hwhole ih =>
    rw [extents_whole hwhole] at h
    cases h
  | keep c rest hspan ih =>
    rw [extents_cons hspan] at h
    rw [strip_cons hspan, ih h]

/-- A directive starts with a brace. -/
theorem span?_cons_of_ne {c : Char} (hc : c ≠ '\x7b') (rest : List Char) :
    d.span? (c :: rest) = none := by
  rw [← Option.not_isSome_iff_eq_none, span?_isSome_iff]
  rintro ⟨inner, after, heq⟩
  obtain ⟨k, hk⟩ := exists_opener_eq d
  rw [hk] at heq
  obtain ⟨rfl, -⟩ := List.cons.inj heq
  exact hc rfl

/-- Text without opening braces is passed over. -/
theorem strip_append_of_not_mem {cs : List Char} (h : '\x7b' ∉ cs) (rest : List Char) :
    d.strip (cs ++ rest) = cs ++ d.strip rest := by
  induction cs with
  | nil => rfl
  | cons c cs ih =>
    rw [List.mem_cons, not_or] at h
    rw [List.cons_append, strip_cons (span?_cons_of_ne (Ne.symm h.1) _), ih h.2, List.cons_append]

/-- So is blank text. -/
theorem strip_blank_append {space : List Char} (h : ∀ c ∈ space, isBlank c = true)
    (cs : List Char) : d.strip (space ++ cs) = space ++ d.strip cs :=
  strip_append_of_not_mem (not_mem_of_forall h (by decide)) cs

theorem extents_blank_append {space : List Char} (h : ∀ c ∈ space, isBlank c = true)
    (cs : List Char) :
    d.extents offset (space ++ cs) = d.extents (offset + byteLength space) cs := by
  induction space generalizing offset with
  | nil => rfl
  | cons c space ih =>
    have hc : c ≠ '\x7b' := by
      rintro rfl
      exact absurd (h '\x7b' (by simp)) (by decide)
    rw [List.cons_append, extents_cons (span?_cons_of_ne hc _),
      ih fun b hb => h b (List.mem_cons_of_mem c hb), byteLength_cons, Nat.add_assoc]

/-- What stands at an extent: a directive, which the pass blanks. -/
theorem exists_of_mem_extents {cs : List Char} {s : Extent} (h : s ∈ d.extents offset cs) :
    ∃ before span after left, cs = before ++ (span ++ after) ∧ d.Whole span ∧
      offset + byteLength before = s.start ∧ s.start + byteLength span = s.stop ∧
      d.strip cs = left ++ (blank span ++ d.strip after) ∧ byteLength left = byteLength before := by
  induction cs using d.pass_induction generalizing offset with
  | nil => simp at h
  | whole span after hwhole ih =>
    rw [extents_whole hwhole, List.mem_cons] at h
    rcases h with rfl | h
    · exact ⟨[], span, after, [], rfl, hwhole, rfl, rfl, strip_whole hwhole after, rfl⟩
    · obtain ⟨before, span', after', left, rfl, hwhole', hstart, hstop, hstrip, hlen⟩ := ih h
      refine ⟨span ++ before, span', after', blank span ++ left, by simp, hwhole', ?_, hstop, ?_, ?_⟩
      · rw [byteLength_append, ← hstart, Nat.add_assoc]
      · rw [strip_whole hwhole, hstrip, List.append_assoc]
      · rw [byteLength_append, byteLength_append, byteLength_blank, hlen]
  | keep c rest hspan ih =>
    rw [extents_cons hspan] at h
    obtain ⟨before, span', after', left, hrest, hwhole', hstart, hstop, hstrip, hlen⟩ := ih h
    refine ⟨c :: before, span', after', c :: left, by rw [hrest]; rfl, hwhole', ?_, hstop, ?_, ?_⟩
    · rw [byteLength_cons, ← hstart, Nat.add_assoc]
    · rw [strip_cons hspan, hstrip, List.cons_append]
    · rw [byteLength_cons, byteLength_cons, hlen]

/-- What a pass leaves unblanked lies outside the extents. -/
theorem outside_of_mem_extents {cs a part z : List Char} {s : Extent}
    (h : s ∈ d.extents offset cs) (heq : d.strip cs = a ++ (part ++ z)) (hne : part ≠ [])
    (hpart : ∀ c ∈ part, isBlank c = false) :
    s.stop ≤ offset + byteLength a ∨ offset + (byteLength a + byteLength part) ≤ s.start := by
  obtain ⟨before, span, after, left, -, hwhole, hstart, hstop, hstrip, hleft⟩ :=
    exists_of_mem_extents h
  have hfour := hwhole.four_le
  have hblank : blank span ≠ [] := by
    intro hnil
    have := congrArg byteLength hnil
    rw [byteLength_blank, byteLength_nil] at this
    omega
  have := disjoint_of_blank (hstrip.symm.trans heq) (fun c hc => isBlank_of_mem_blank hc) hpart
    hblank hne
  rw [byteLength_blank] at this
  omega

/-! ## Cutting a text

A pass over a text finds in the first of two parts all that it finds in that part alone: behind a
bracket that is opened there and not closed nothing is found, however the text goes on
(`mem_extents_append`). It can find more, namely a directive that such a bracket starts and the
second part ends. When there is none, the two parts have nothing to do with each other (`Apart`). -/

/-- A part that starts no directive of a text starts none of the text up to a cut. -/
theorem span?_eq_none_of_append {a b : List Char} (h : d.span? (a ++ b) = none) :
    d.span? a = none := by
  rw [← Option.not_isSome_iff_eq_none, span?_isSome_iff] at h ⊢
  rintro ⟨inner, after, rfl⟩
  exact h ⟨inner, after ++ b, by simp only [List.append_assoc]⟩

/-- Behind an opening bracket that is not closed nothing is found, and so what is found in a text is
found however it goes on. -/
theorem mem_extents_append {a : List Char} {s : Extent} (h : s ∈ d.extents offset a)
    (b : List Char) : s ∈ d.extents offset (a ++ b) := by
  induction a using d.pass_induction generalizing offset with
  | nil => simp at h
  | whole span after hwhole ih =>
    rw [extents_whole hwhole, List.mem_cons] at h
    rw [List.append_assoc, extents_whole hwhole, List.mem_cons]
    exact h.imp_right ih
  | keep c rest hspan ih =>
    rw [extents_cons hspan] at h
    cases hfound : d.span? (c :: (rest ++ b)) with
    | none =>
      rw [List.cons_append, extents_cons hfound]
      exact ih h
    | some found =>
      -- the bracket that opens here is closed in what follows only
      exfalso
      obtain ⟨⟨body, hopened, -⟩, heq⟩ := span?_eq_some_iff.1 hfound
      obtain ⟨before, inner, after, left, rfl, hwhole, -⟩ := exists_of_mem_extents h
      have hopener : c :: (before ++ (inner ++ after)) ++ b =
          d.opener ++ (body ++ d.closer ++ found.2) := by
        rw [List.cons_append, heq, hopened, List.append_assoc]
      obtain ⟨more, hmore, -⟩ := exists_append_of_byteLength_le hopener (by
        have := hwhole.four_le
        simp only [byteLength_opener, byteLength_cons, byteLength_append]
        omega)
      have hopens : d.opens (c :: (before ++ (inner ++ after))) = true :=
        Option.isSome_iff_exists.2 ⟨more, Recogniser.literal_eq_some_iff.2 hmore⟩
      have hnone := @span?_eq_none_of_opens d _ (c :: before) (inner ++ after) hopens hspan rfl
      rw [span?_eq_some_iff.2 ⟨hwhole, rfl⟩] at hnone
      cases hnone

/-- An extent that ends before a cut is found in the text up to the cut. -/
theorem mem_extents_of_stop_le {a b : List Char} {s : Extent} (h : s ∈ d.extents offset (a ++ b))
    (hstop : s.stop ≤ offset + byteLength a) : s ∈ d.extents offset a := by
  generalize hcs : a ++ b = cs at h
  induction cs using d.pass_induction generalizing offset a with
  | nil => simp at h
  | whole span after hwhole ih =>
    rw [extents_whole hwhole, List.mem_cons] at h
    have hle : byteLength span ≤ byteLength a := by
      rcases h with rfl | h
      · exact Nat.le_of_add_le_add_left hstop
      · obtain ⟨hstart, hroom, -⟩ := bounds_of_mem_extents h
        omega
    obtain ⟨more, rfl, rfl⟩ := exists_append_of_byteLength_le hcs hle
    rw [extents_whole hwhole, List.mem_cons]
    refine h.imp_right fun h => ih ?_ rfl h
    rwa [byteLength_append, ← Nat.add_assoc] at hstop
  | keep c rest hspan ih =>
    rw [extents_cons hspan] at h
    cases a with
    | nil =>
      obtain ⟨hstart, hroom, -⟩ := bounds_of_mem_extents h
      rw [byteLength_nil] at hstop
      omega
    | cons b' a =>
      obtain ⟨rfl, rfl⟩ := List.cons.inj hcs
      rw [extents_cons (@span?_eq_none_of_append _ (b' :: a) _ hspan)]
      refine ih ?_ rfl h
      rwa [byteLength_cons, ← Nat.add_assoc] at hstop

/-- No extent of a text in two parts, which starts at `offset`, reaches from one into the other. -/
def Apart (d : Directive) (offset : Nat) (a b : List Char) : Prop :=
  ∀ s ∈ d.extents offset (a ++ b),
    s.stop ≤ offset + byteLength a ∨ offset + byteLength a ≤ s.start

namespace Apart

variable {a b : List Char}

/-- Behind a directive that starts the first part, the parts are still apart. -/
theorem of_whole {span : List Char} (h : d.Apart offset (span ++ a) b) (hwhole : d.Whole span) :
    d.Apart (offset + byteLength span) a b := by
  intro s hs
  have := h s (by rw [List.append_assoc, extents_whole hwhole]; exact List.mem_cons_of_mem _ hs)
  rwa [byteLength_append, ← Nat.add_assoc] at this

/-- A character that starts no directive of the first part starts none of the text. -/
theorem span?_eq_none {c : Char} (h : d.Apart offset (c :: a) b) (hspan : d.span? (c :: a) = none) :
    d.span? (c :: (a ++ b)) = none := by
  cases hfound : d.span? (c :: (a ++ b)) with
  | none => rfl
  | some found =>
    obtain ⟨span, after⟩ := found
    obtain ⟨hwhole, heq⟩ := span?_eq_some_iff.1 hfound
    rw [← List.cons_append] at heq
    have hfirst := h ⟨offset, offset + byteLength span⟩ (by
      rw [heq, extents_whole hwhole]
      exact List.mem_cons_self)
    have hpos : 0 < byteLength (c :: a) := by
      have := c.utf8Size_pos
      rw [byteLength_cons]
      omega
    dsimp only at hfirst
    obtain ⟨more, hca, -⟩ := exists_append_of_byteLength_le heq (by omega)
    rw [hca, span?_eq_some_iff.2 ⟨hwhole, rfl⟩] at hspan
    cases hspan

theorem of_cons {c : Char} (h : d.Apart offset (c :: a) b) (hspan : d.span? (c :: a) = none) :
    d.Apart (offset + c.utf8Size) a b := by
  intro s hs
  have := h s (by rwa [List.cons_append, extents_cons (h.span?_eq_none hspan)])
  rwa [byteLength_cons, ← Nat.add_assoc] at this

/-- The extents of two parts that are apart are those of each. -/
theorem extents_append (h : d.Apart offset a b) :
    d.extents offset (a ++ b) = d.extents offset a ++ d.extents (offset + byteLength a) b := by
  induction a using d.pass_induction generalizing offset with
  | nil => simp
  | whole span after hwhole ih =>
    rw [List.append_assoc, extents_whole hwhole, extents_whole hwhole, ih (h.of_whole hwhole),
      byteLength_append, Nat.add_assoc, List.cons_append]
  | keep c rest hspan ih =>
    rw [List.cons_append, extents_cons (h.span?_eq_none hspan), extents_cons hspan,
      ih (h.of_cons hspan), byteLength_cons, Nat.add_assoc]

/-- A pass goes over two parts that are apart as if each stood alone. -/
theorem strip_append (h : d.Apart offset a b) : d.strip (a ++ b) = d.strip a ++ d.strip b := by
  induction a using d.pass_induction generalizing offset with
  | nil => simp
  | whole span after hwhole ih =>
    rw [List.append_assoc, strip_whole hwhole, strip_whole hwhole, ih (h.of_whole hwhole),
      List.append_assoc]
  | keep c rest hspan ih =>
    rw [List.cons_append, strip_cons (h.span?_eq_none hspan), strip_cons hspan,
      ih (h.of_cons hspan), List.cons_append]

/-- Behind a first cut, the parts at a second one are still apart. -/
theorem drop {c : List Char} (h : d.Apart offset (a ++ b) c) (hcut : d.Apart offset a b) :
    d.Apart (offset + byteLength a) b c := by
  have hfirst : d.Apart offset a (b ++ c) := by
    intro s hs
    rw [← List.append_assoc, h.extents_append, List.mem_append] at hs
    rcases hs with hs | hs
    · exact hcut s hs
    · obtain ⟨hstart, -, -⟩ := bounds_of_mem_extents hs
      rw [byteLength_append] at hstart
      omega
  intro s hs
  have hmem : s ∈ d.extents offset (a ++ b ++ c) := by
    rw [List.append_assoc, hfirst.extents_append]
    exact List.mem_append_right _ hs
  have := h s hmem
  rwa [byteLength_append, ← Nat.add_assoc] at this

end Apart

end Directive

end StagingAudit
