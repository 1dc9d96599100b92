import StagingAudit.Proofs.ConfigCall.Opening

/-!
# Where a configuration call closes

The line of a call is found by a search for openings, its arguments by a search for whole calls,
which asks at every place for an opening and then for the nearest closing behind it. The two could
settle on different calls: if the first one is left open, a search for whole calls goes on to the
next. It finds nothing there either, because whatever closes a later call stands behind the first
opening as well. **The arguments are those of the call on whose line they are reported**
(`configCall_of_first_opening`), and there are none exactly when nothing closes behind the first
opening.
-/

namespace StagingAudit

/-! ## Closings -/

/-- A parenthesis and double braces, with white space between them at most. -/
inductive ClosesConfig : List Char → Prop where
  /-- the parts one after the other -/
  | mk {gap : List Char} (gap_white : ∀ c ∈ gap, isWhite c = true) :
      ClosesConfig ([')'] ++ (gap ++ ['\x7d', '\x7d']))

/-- The recogniser for the end of a call takes what the grammar says. -/
theorem configClosing_eq_some_iff {cs rest : List Char} :
    configClosing cs = some rest ↔ ∃ taken, ClosesConfig taken ∧ cs = taken ++ rest := by
  simp only [configClosing, Option.bind_eq_bind, Option.bind_eq_some_iff,
    Recogniser.literal_eq_some_iff]
  constructor
  · rintro ⟨cs', rfl, hbraces⟩
    obtain ⟨gap, hgap, hcs'⟩ := exists_append_skipWhite cs'
    refine ⟨_, .mk hgap, ?_⟩
    rw [hcs', hbraces]
    simp
  · rintro ⟨_, @⟨gap, hgap⟩, rfl⟩
    refine ⟨gap ++ (['\x7d', '\x7d'] ++ rest), by simp, ?_⟩
    exact skipWhite_append_eq hgap (by simp [isWhite])

/-- An opening ends at its only parenthesis. -/
theorem OpensConfig.exists_eq_concat {opening : List Char} (h : OpensConfig opening) :
    ∃ front, opening = front ++ ['('] ∧ '(' ∉ front := by
  obtain @⟨space, gap, hspace, hgap⟩ := h
  refine ⟨['\x7b', '\x7b'] ++ (space ++ ("config".toList ++ gap)), by simp, ?_⟩
  simp only [List.mem_append, not_or]
  exact ⟨by decide, not_mem_of_forall hspace (by decide), by decide,
    not_mem_of_forall hgap (by decide)⟩

/-- A text cut at the first opening of a call. -/
structure IsFirstOpening (raw before opening inner : List Char) : Prop where
  /-- the parts make up the text -/
  text : raw = before ++ (opening ++ inner)
  /-- the call opens -/
  opens : OpensConfig opening
  /-- no call opens before it -/
  first : ∀ offset, HoldsAt OpensConfig raw offset → byteLength before ≤ offset

/-- A search for openings cuts a text at the first one. -/
theorem find?_configOpening_eq_some_iff {raw before inner : List Char} :
    find? configOpening raw = some (before, inner) ↔
      ∃ opening, IsFirstOpening raw before opening inner := by
  rw [find?_eq_some_iff_first configOpening_eq_some_iff]
  refine exists_congr fun opening => ⟨?_, fun hcut => ⟨hcut.text, hcut.opens, hcut.first⟩⟩
  rintro ⟨htext, hopens, hfirst⟩
  exact ⟨htext, hopens, hfirst⟩

/-- What follows an opening holds what follows every later one. -/
theorem OpensConfig.suffix {before opening inner before' opening' inner' : List Char}
    (h : OpensConfig opening) (h' : OpensConfig opening')
    (heq : before ++ (opening ++ inner) = before' ++ (opening' ++ inner'))
    (hle : byteLength before ≤ byteLength before') : inner' <:+ inner := by
  obtain ⟨more, rfl, htail⟩ := exists_append_of_byteLength_le heq.symm hle
  obtain ⟨front, rfl, hfront⟩ := h.exists_eq_concat
  obtain ⟨front', rfl, -⟩ := h'.exists_eq_concat
  -- the parenthesis of the first opening is the first of all
  have hsplit : front ++ '(' :: inner = (more ++ front') ++ '(' :: inner' := by
    simpa using htail
  obtain ⟨more', -, hinner⟩ := exists_append_of_not_mem hsplit hfront
  cases more' with
  | nil =>
    obtain ⟨-, rfl⟩ := List.cons.inj hinner
    exact List.suffix_refl inner
  | cons c more' =>
    obtain ⟨-, rfl⟩ := List.cons.inj hinner
    exact (List.suffix_cons '(' inner').trans (List.suffix_append more' _)

/-! ## Whole calls -/

/-- A whole call at the start of a text: an opening and the nearest closing behind it. Answers the
arguments between the two. -/
def wholeCall (cs : List Char) : Option (List Char) :=
  (configOpening cs).bind fun inner => (find? configClosing inner).map (·.1)

/-- The arguments of the first whole call, wherever it opens. -/
def wholeArguments? (raw : List Char) : Option (List Char) :=
  (scan? (fun _ cs => wholeCall cs) none raw).map (·.2)

/-- A closing behind a later opening is one behind the first. -/
theorem wholeCall_eq_none {raw before inner : List Char}
    (hfind : find? configOpening raw = some (before, inner))
    (hclosing : find? configClosing inner = none) {before' rest : List Char}
    (hraw : raw = before' ++ rest) : wholeCall rest = none := by
  obtain ⟨opening, hcut⟩ := find?_configOpening_eq_some_iff.1 hfind
  cases hopening : configOpening rest with
  | none => rw [wholeCall, hopening, Option.bind_none]
  | some inner' =>
    obtain ⟨opening', hopens', rfl⟩ := configOpening_eq_some_iff.1 hopening
    have hle := hcut.first _ ⟨before', opening', inner', hraw, rfl, hopens'⟩
    obtain ⟨more, rfl⟩ := hcut.opens.suffix hopens' (hcut.text.symm.trans hraw) hle
    have hnone : find? configClosing inner' = none := by
      rw [find?, scan?_eq_none_iff]
      rintro u v rfl
      exact eq_none_of_find? hclosing (List.append_assoc more u v).symm
    rw [wholeCall, hopening, Option.bind_some, hnone, Option.map_none]

/-- **Searching for whole calls comes to the same** as searching for an opening and then for a
closing. -/
theorem wholeArguments?_eq (raw : List Char) : wholeArguments? raw = configArguments? raw := by
  rw [wholeArguments?, configArguments?]
  cases hfind : find? configOpening raw with
  | none =>
    have hnone : scan? (fun _ cs => wholeCall cs) none raw = none := by
      refine scan?_eq_none_iff.2 fun before rest hraw => ?_
      rw [wholeCall, eq_none_of_find? hfind hraw, Option.bind_none]
    rw [hnone]
    rfl
  | some found =>
    obtain ⟨before, inner⟩ := found
    cases hclosing : find? configClosing inner with
    | none =>
      rw [scan?_eq_none_iff.2 fun _ _ hraw => wholeCall_eq_none hfind hclosing hraw]
      simp [hclosing]
    | some closed =>
      obtain ⟨rest, rfl, hopening, hbefore⟩ := scan?_eq_some_iff.1 hfind
      have hcall : wholeCall rest = some closed.1 := by
        rw [wholeCall, hopening, Option.bind_some, hclosing, Option.map_some]
      have hpassed : ∀ u v, before = u ++ v → v ≠ [] → wholeCall (v ++ rest) = none := by
        intro u v huv hv
        rw [wholeCall, hbefore u v huv hv, Option.bind_none]
      rw [scan?_append hpassed, scan?_of_some hcall]
      simp [hclosing]

/-! ## The first call -/

/-- A text cut at the first opening of a call and at the first closing behind it. -/
structure IsFirstCall (raw before opening arguments closing after : List Char) : Prop extends
    IsFirstOpening raw before opening (arguments ++ (closing ++ after)) where
  /-- the call is closed -/
  closes : ClosesConfig closing
  /-- nothing closes it before that -/
  nearest : ∀ offset, HoldsAt ClosesConfig (arguments ++ (closing ++ after)) offset →
    byteLength arguments ≤ offset

/-- The two searches cut a text at its first call. -/
theorem exists_isFirstCall_iff {raw before arguments : List Char} :
    (∃ opening closing after, IsFirstCall raw before opening arguments closing after) ↔
      ∃ inner after, find? configOpening raw = some (before, inner) ∧
        find? configClosing inner = some (arguments, after) := by
  simp only [find?_configOpening_eq_some_iff, find?_eq_some_iff_first configClosing_eq_some_iff]
  constructor
  · rintro ⟨opening, closing, after, hcall⟩
    exact ⟨_, after, ⟨opening, hcall.toIsFirstOpening⟩, closing, rfl, hcall.closes, hcall.nearest⟩
  · rintro ⟨_, after, ⟨opening, hcut⟩, closing, rfl, hcloses, hnearest⟩
    exact ⟨opening, closing, after, hcut, hcloses, hnearest⟩

/-- The arguments are those of the first call. -/
theorem configArguments?_eq_some_iff {raw arguments : List Char} :
    configArguments? raw = some arguments ↔
      ∃ before opening closing after,
        IsFirstCall raw before opening arguments closing after := by
  have hcut : configArguments? raw = some arguments ↔
      ∃ before inner after, find? configOpening raw = some (before, inner) ∧
        find? configClosing inner = some (arguments, after) := by
    simp [configArguments?, Option.bind_eq_some_iff]
  rw [hcut]
  exact exists_congr fun before => exists_isFirstCall_iff.symm

/-- There are arguments when something closes behind the first opening. -/
theorem isSome_configArguments?_iff {raw : List Char} :
    (configArguments? raw).isSome = true ↔
      ∃ before opening inner offset, IsFirstOpening raw before opening inner ∧
        HoldsAt ClosesConfig inner offset := by
  constructor
  · intro hsome
    obtain ⟨arguments, hargs⟩ := Option.isSome_iff_exists.1 hsome
    obtain ⟨before, opening, closing, after, hcall⟩ := configArguments?_eq_some_iff.1 hargs
    exact ⟨before, opening, _, byteLength arguments, hcall.toIsFirstOpening, arguments, closing,
      after, rfl, rfl, hcall.closes⟩
  · rintro ⟨before, opening, inner, offset, hcut, hholds⟩
    have hfind := find?_configOpening_eq_some_iff.2 ⟨opening, hcut⟩
    cases hclosing : find? configClosing inner with
    | none =>
      exact absurd hholds
        ((find?_eq_none_iff_not_holdsAt configClosing_eq_some_iff).1 hclosing offset)
    | some closed => simp [configArguments?, hfind, hclosing]

/-- The line is that of the first opening. -/
theorem IsFirstCall.configLine?_eq {raw before opening arguments closing after : List Char}
    (h : IsFirstCall raw before opening arguments closing after) :
    configLine? raw = some (lineAt raw (byteLength before)) := by
  obtain ⟨inner, after', hfind, -⟩ := exists_isFirstCall_iff.1 ⟨opening, closing, after, h⟩
  rw [configLine?, hfind, Option.map_some]

/-- **Line and arguments come from one call.** A call has arguments exactly when something closes
behind the first opening of the text; they run from the end of that opening up to the first
closing, whichever way they are searched for. What is declared is read from these arguments and
reported on the line of the same opening, and nothing is declared when the first opening is left
open, whatever calls follow it. -/
theorem configCall_of_first_opening (raw : List Char) :
    ((configArguments? raw).isSome = true ↔
      ∃ before opening inner offset, IsFirstOpening raw before opening inner ∧
        HoldsAt ClosesConfig inner offset) ∧
    (∀ arguments, configArguments? raw = some arguments ↔
      ∃ before opening closing after,
        IsFirstCall raw before opening arguments closing after) ∧
    wholeArguments? raw = configArguments? raw ∧
    ∀ call, ConfigCall.ofRaw? raw = some call ↔
      ∃ before opening arguments closing after,
        IsFirstCall raw before opening arguments closing after ∧
        configLine? raw = some call.line ∧
        call = ⟨lineAt raw (byteLength before), extractMaterialization arguments,
          extractTags arguments⟩ := by
  refine ⟨isSome_configArguments?_iff, fun _ => configArguments?_eq_some_iff,
    wholeArguments?_eq raw, fun call => ?_⟩
  simp only [ConfigCall.ofRaw?, Option.bind_eq_bind, Option.bind_eq_some_iff]
  constructor
  · rintro ⟨line, hline, arguments, hargs, hpure⟩
    obtain ⟨before, opening, closing, after, hcall⟩ := configArguments?_eq_some_iff.1 hargs
    obtain rfl := Option.some.inj (hline.symm.trans hcall.configLine?_eq)
    obtain rfl := Option.some.inj hpure
    exact ⟨before, opening, arguments, closing, after, hcall, hline, rfl⟩
  · rintro ⟨before, opening, arguments, closing, after, hcall, hline, rfl⟩
    exact ⟨_, hline, arguments,
      configArguments?_eq_some_iff.2 ⟨before, opening, closing, after, hcall⟩, rfl⟩

end StagingAudit
