import StagingAudit.Text.Case
import StagingAudit.Text.White
import StagingAudit.Text.Word

/-!
# Recognisers

A recogniser is asked about the text that starts at a position and answers what is left after the
shape it knows, or nothing. Recognisers are chained by `Option`'s bind; `scan?` looks for the
leftmost position at which one succeeds, and `cutAt?` for the leftmost occurrence of a fixed text.

None of them backtracks: each shape of the project starts every part with a character the part
before it cannot contain, so taking runs as long as possible loses nothing.
-/

namespace StagingAudit

/-- A recogniser answers the rest of the text after the shape it knows. -/
abbrev Recogniser := List Char → Option (List Char)

namespace Recogniser

/-- Exactly the given text. -/
def literal : List Char → Recogniser
  | [], cs => some cs
  | _ :: _, [] => none
  | p :: ps, c :: cs => if p = c then literal ps cs else none

/-- The given text up to case, character by character. -/
def folded : List Char → Recogniser
  | [], cs => some cs
  | _ :: _, [] => none
  | p :: ps, c :: cs => if sameLetter p c then folded ps cs else none

/-- One or more characters of a class, as many as there are. -/
def run (p : Char → Bool) : Recogniser
  | c :: cs => if p c then some (cs.dropWhile p) else none
  | [] => none

/-- Any amount of white space. -/
def white : Recogniser := fun cs => some (skipWhite cs)

/-- At least one white-space character, and all that follow it. -/
def white1 : Recogniser := run isWhite

/-- A whole word. -/
def word : Recogniser := run isWord

end Recogniser

/-! ## Leftmost matches -/

/-- The leftmost position at which `r` succeeds, as the text before it and `r`'s answer. The
recogniser sees the character before the position and the text from it on; `prev` is the character
before the whole text. -/
def scan? {α : Type} (r : Option Char → List Char → Option α) :
    Option Char → List Char → Option (List Char × α)
  | prev, [] => (r prev []).map ([], ·)
  | prev, c :: cs =>
    match r prev (c :: cs) with
    | some a => some ([], a)
    | none => (scan? r (some c) cs).map fun (before, a) => (c :: before, a)

/-- The leftmost position at which a recogniser that looks ahead only succeeds. -/
def find? (r : Recogniser) (cs : List Char) : Option (List Char × List Char) :=
  scan? (fun _ rest => r rest) none cs

/-- Whether a recogniser succeeds somewhere in the text. -/
def occurs (r : Recogniser) (cs : List Char) : Bool := (find? r cs).isSome

/-- The text before and after the leftmost occurrence of `pattern`. -/
def cutAt? (pattern cs : List Char) : Option (List Char × List Char) :=
  find? (Recogniser.literal pattern) cs

/-- Whether `pattern` occurs in the text. -/
def containsText (pattern cs : List Char) : Bool := occurs (Recogniser.literal pattern) cs

/-! ## What a match says about the text -/

/-- What a literal leaves is the text without it. -/
theorem Recogniser.literal_eq_some_iff {text cs rest : List Char} :
    Recogniser.literal text cs = some rest ↔ cs = text ++ rest := by
  induction text generalizing cs with
  | nil => simp [Recogniser.literal, eq_comm]
  | cons p ps ih =>
    cases cs with
    | nil => simp [Recogniser.literal]
    | cons c cs =>
      by_cases hpc : p = c
      · simp [Recogniser.literal, hpc, ih]
      · simp [Recogniser.literal, hpc, Ne.symm hpc]

/-- The leftmost success splits the text where the recogniser was asked. -/
theorem exists_of_scan? {α : Type} {r : Option Char → List Char → Option α} {prev : Option Char}
    {cs before : List Char} {a : α} (h : scan? r prev cs = some (before, a)) :
    ∃ q rest, cs = before ++ rest ∧ r q rest = some a := by
  induction cs generalizing prev before with
  | nil =>
    obtain ⟨a', hr, he⟩ := Option.map_eq_some_iff.1 h
    cases he
    exact ⟨prev, [], rfl, hr⟩
  | cons c cs ih =>
    simp only [scan?] at h
    split at h
    · next hr => cases h; exact ⟨prev, c :: cs, rfl, hr⟩
    · obtain ⟨⟨before', a'⟩, hs, he⟩ := Option.map_eq_some_iff.1 h
      cases he
      obtain ⟨q, rest, hcs, hr⟩ := ih hs
      exact ⟨q, rest, by simp [hcs], hr⟩

/-- A recogniser that looks ahead only and succeeds nowhere fails on every end of the text. -/
theorem eq_none_of_find? {r : Recogniser} {cs before rest : List Char} (h : find? r cs = none)
    (hcs : cs = before ++ rest) : r rest = none := by
  have hscan : ∀ (cs before : List Char) (prev : Option Char),
      scan? (fun _ rest => r rest) prev cs = none → cs = before ++ rest → r rest = none := by
    intro cs
    induction cs with
    | nil =>
      intro before prev h hcs
      obtain ⟨rfl, rfl⟩ := List.append_eq_nil_iff.1 hcs.symm
      simpa [scan?] using h
    | cons c cs ih =>
      intro before prev h hcs
      simp only [scan?] at h
      split at h
      · cases h
      · next hnone =>
        cases before with
        | nil => rw [← hnone, hcs]; rfl
        | cons b before =>
          obtain ⟨rfl, rfl⟩ := List.cons.inj hcs
          exact ih before (some c) (Option.map_eq_none_iff.1 h) rfl
  exact hscan cs before none h hcs

/-- A text without a cut does not hold the pattern. -/
theorem ne_of_cutAt?_eq_none {pattern cs : List Char} (h : cutAt? pattern cs = none)
    (before after : List Char) : cs ≠ before ++ (pattern ++ after) := by
  intro hcs
  have hnone := eq_none_of_find? h hcs
  have hsome := Recogniser.literal_eq_some_iff.2 (rfl : pattern ++ after = pattern ++ after)
  rw [hnone] at hsome
  cases hsome

/-- A cut puts the pattern between its two parts. -/
theorem eq_of_cutAt? {pattern cs before after : List Char}
    (h : cutAt? pattern cs = some (before, after)) : cs = before ++ pattern ++ after := by
  obtain ⟨_, rest, hcs, hr⟩ := exists_of_scan? h
  rw [Recogniser.literal_eq_some_iff] at hr
  simp [hcs, hr]

end StagingAudit
