import StagingAudit.ConfigCall
import StagingAudit.Proofs.Text.Offset
import StagingAudit.Proofs.Text.Recognition

/-!
# Where a configuration call opens

A call opens with double braces, `config` and a parenthesis, with optional white space between
them. `OpensConfig` says so without the recogniser, and `HoldsAt` puts it at a byte offset: **the
line of the configuration call is that of the first offset where a call opens**.
-/

namespace StagingAudit

/-- A part of some shape stands at a byte offset of a text. -/
def HoldsAt (shape : List Char → Prop) (text : List Char) (offset : Nat) : Prop :=
  ∃ before part after, text = before ++ (part ++ after) ∧ byteLength before = offset ∧ shape part

/-! ## Searches for a shape -/

section Shape

variable {r : Recogniser} {shape : List Char → Prop} {cs : List Char}

/-- A search for a shape finds the first place where it stands. -/
theorem find?_eq_some_iff_first
    (h : ∀ {cs rest}, r cs = some rest ↔ ∃ taken, shape taken ∧ cs = taken ++ rest)
    {before rest : List Char} :
    find? r cs = some (before, rest) ↔
      ∃ taken, cs = before ++ (taken ++ rest) ∧ shape taken ∧
        ∀ offset, HoldsAt shape cs offset → byteLength before ≤ offset := by
  rw [find?, scan?_eq_some_iff]
  constructor
  · rintro ⟨tail, rfl, hfound, hfirst⟩
    obtain ⟨taken, htaken, rfl⟩ := h.1 hfound
    refine ⟨taken, rfl, htaken, ?_⟩
    rintro _ ⟨before', taken', rest', htext, rfl, htaken'⟩
    rcases append_split htext with ⟨more, rfl, -⟩ | ⟨more, hmore, rfl, htail⟩
    · simp
    · -- the search would have stopped at the other place
      have hnone := hfirst before' more rfl hmore
      rw [← htail, h.2 ⟨taken', htaken', rfl⟩] at hnone
      cases hnone
  · rintro ⟨taken, rfl, htaken, hfirst⟩
    refine ⟨taken ++ rest, rfl, h.2 ⟨taken, htaken, rfl⟩, ?_⟩
    rintro u v rfl hv
    cases hfound : r (v ++ (taken ++ rest)) with
    | none => rfl
    | some rest' =>
      exfalso
      obtain ⟨taken', htaken', htext⟩ := h.1 hfound
      have hle := hfirst (byteLength u) ⟨u, taken', rest', by rw [← htext, List.append_assoc], rfl,
        htaken'⟩
      rw [byteLength_append] at hle
      exact hv (eq_nil_of_byteLength (by omega))

/-- A search for a shape that stands nowhere fails. -/
theorem find?_eq_none_iff_not_holdsAt
    (h : ∀ {cs rest}, r cs = some rest ↔ ∃ taken, shape taken ∧ cs = taken ++ rest) :
    find? r cs = none ↔ ∀ offset, ¬HoldsAt shape cs offset := by
  rw [find?, scan?_eq_none_iff]
  constructor
  · rintro hnone _ ⟨before, taken, rest, rfl, rfl, htaken⟩
    have hfound := hnone before (taken ++ rest) rfl
    rw [h.2 ⟨taken, htaken, rfl⟩] at hfound
    cases hfound
  · rintro hnot before rest rfl
    cases hfound : r rest with
    | none => rfl
    | some rest' =>
      obtain ⟨taken, htaken, rfl⟩ := h.1 hfound
      exact absurd ⟨before, taken, rest', rfl, rfl, htaken⟩ (hnot _)

end Shape

/-! ## Openings -/

/-- Double braces, `config` and a parenthesis, with white space between them at most. -/
inductive OpensConfig : List Char → Prop where
  /-- the parts one after the other -/
  | mk {space gap : List Char} (space_white : ∀ c ∈ space, isWhite c = true)
      (gap_white : ∀ c ∈ gap, isWhite c = true) :
      OpensConfig (['\x7b', '\x7b'] ++ (space ++ ("config".toList ++ (gap ++ ['(']))))

/-- The recogniser for openings of a call takes what the grammar says. -/
theorem configOpening_eq_some_iff {cs rest : List Char} :
    configOpening cs = some rest ↔ ∃ taken, OpensConfig taken ∧ cs = taken ++ rest := by
  simp only [configOpening, Option.bind_eq_bind, Option.bind_eq_some_iff,
    Recogniser.literal_eq_some_iff]
  refine ⟨?_, ?_⟩
  · rintro ⟨cs₁, rfl, cs₂, hname, hparen⟩
    obtain ⟨space, hspace, hcs₁⟩ := exists_append_skipWhite cs₁
    obtain ⟨gap, hgap, hcs₂⟩ := exists_append_skipWhite cs₂
    refine ⟨_, .mk hspace hgap, ?_⟩
    rw [hcs₁, hname, hcs₂, hparen]
    simp
  · rintro ⟨_, @⟨space, gap, hspace, hgap⟩, rfl⟩
    refine ⟨space ++ ("config".toList ++ (gap ++ '(' :: rest)), by simp,
      gap ++ '(' :: rest, ?_, ?_⟩
    · exact skipWhite_append_eq hspace (by simp [isWhite])
    · exact skipWhite_append_eq hgap (by simp [isWhite])

/-- The line of the configuration call is the line of its first opening. -/
theorem exists_of_configLine? {raw : List Char} {line : Nat} (h : configLine? raw = some line) :
    ∃ offset, lineAt raw offset = line ∧ HoldsAt OpensConfig raw offset ∧
      ∀ other, HoldsAt OpensConfig raw other → offset ≤ other := by
  obtain ⟨⟨before, rest⟩, hfind, hline⟩ := Option.map_eq_some_iff.1 h
  obtain ⟨taken, hraw, htaken, hfirst⟩ :=
    (find?_eq_some_iff_first configOpening_eq_some_iff).1 hfind
  exact ⟨byteLength before, hline, ⟨before, taken, rest, hraw, rfl, htaken⟩, hfirst⟩

end StagingAudit
