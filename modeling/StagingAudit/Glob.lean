import StagingAudit.Text.Marks
import StagingAudit.Text.Recogniser

/-!
# Globs

Path patterns for exclusion. A star stands for any text, a question mark for any character, a
bracket for one character of a class, and a double star for any directories; all of them except
the double star also match separators. A double star has to be a whole component of the pattern,
and a bracket has to be closed: a pattern that breaks a rule is no glob.

`Glob.Matches` says what it means that parts match a text; `Glob.isMatch` finds out by moving marks
over the text, and `Glob.isMatch_iff` says that the two agree.
-/

namespace StagingAudit

/-- Characters of a class: those between two bounds, which may be equal. -/
structure GlobRange where
  /-- the least character -/
  low : Char
  /-- the greatest character -/
  high : Char
  deriving DecidableEq, Repr

/-- The parts of a glob. -/
inductive GlobPart where
  /-- this character -/
  | char (c : Char)
  /-- any one character -/
  | any
  /-- any text -/
  | star
  /-- nothing, a text that ends with a separator, or all that is left -/
  | deep
  /-- one character of a class -/
  | oneOf (ranges : List GlobRange)
  /-- one character outside a class -/
  | noneOf (ranges : List GlobRange)
  deriving DecidableEq, Repr

namespace Glob

/-! ## Reading a pattern -/

/-- The ranges of a class: two characters with a hyphen between them, or one by itself. -/
def ranges : List Char → List GlobRange
  | a :: '-' :: b :: rest => ⟨a, b⟩ :: ranges rest
  | a :: rest => ⟨a, a⟩ :: ranges rest
  | [] => []

/-- The inside of a bracket and the text after it. Its first character is never the end of it. -/
def bracket? : List Char → Option (List Char × List Char)
  | c :: rest => (cutAt? [']'] rest).map fun (inside, after) => (c :: inside, after)
  | [] => none

theorem length_lt_of_bracket? {cs inside after : List Char}
    (h : bracket? cs = some (inside, after)) : after.length < cs.length := by
  cases cs with
  | nil => cases h
  | cons c rest =>
    obtain ⟨⟨body, tail⟩, hcut, he⟩ := Option.map_eq_some_iff.1 h
    cases he
    rw [eq_of_cutAt? hcut]
    simp
    omega

/-- The parts of a pattern; `fresh` says whether a component starts here. -/
def parseFrom (fresh : Bool) (cs : List Char) : Option (List GlobPart) :=
  match cs with
  | [] => some []
  | '?' :: rest => (parseFrom false rest).map (.any :: ·)
  | '*' :: '*' :: '*' :: _ => none
  | '*' :: '*' :: '/' :: rest =>
    if fresh then (parseFrom true rest).map (.deep :: ·) else none
  | ['*', '*'] => if fresh then some [.deep] else none
  | '*' :: '*' :: _ => none
  | '*' :: rest => (parseFrom false rest).map (.star :: ·)
  | '[' :: '!' :: rest =>
    match _h : bracket? rest with
    | some (inside, after) => (parseFrom false after).map (.noneOf (ranges inside) :: ·)
    | none => none
  | '[' :: rest =>
    match _h : bracket? rest with
    | some (inside, after) => (parseFrom false after).map (.oneOf (ranges inside) :: ·)
    | none => none
  | c :: rest => (parseFrom (c == '/') rest).map (.char c :: ·)
termination_by cs.length
decreasing_by
  all_goals simp_wf
  all_goals first
    | omega
    | (have hlt := length_lt_of_bracket? (by assumption); omega)

/-- The parts of a pattern, if it is a glob. -/
def parse? (pattern : List Char) : Option (List GlobPart) := parseFrom true pattern

/-! ## Matching -/

/-- Whether the class holds the character. -/
def classHolds (ranges : List GlobRange) (c : Char) : Bool :=
  ranges.any fun r => r.low ≤ c && c ≤ r.high

/-- Moves the marks of a reader over one part. -/
def advance (text : List Char) (marks : Marks) : GlobPart → Marks
  | .char c => marks.step (c == ·) text
  | .any => marks.step (fun _ => true) text
  | .star => marks.spread (fun _ => true) text
  | .deep =>
    let all := marks.spread (fun _ => true) text
    (marks.union (all.step (· == '/') text)).union all.onlyEnd
  | .oneOf ranges => marks.step (classHolds ranges) text
  | .noneOf ranges => marks.step (fun c => !classHolds ranges c) text

/-- Whether the parts match the whole text. -/
def isMatch (parts : List GlobPart) (text : List Char) : Bool :=
  (parts.foldl (advance text) (Marks.atStart text)).atEnd

/-! ## What matching means -/

/-- Whether a part can take up a text when `rest` comes after it. -/
def Takes (taken rest : List Char) : GlobPart → Prop
  | .char c => taken = [c]
  | .any => ∃ c, taken = [c]
  | .star => True
  | .deep => taken = [] ∨ taken.getLast? = some '/' ∨ rest = []
  | .oneOf ranges => ∃ c, classHolds ranges c = true ∧ taken = [c]
  | .noneOf ranges => ∃ c, classHolds ranges c = false ∧ taken = [c]

/-- Whether parts take up a whole text, one after the other. -/
def Matches : List GlobPart → List Char → Prop
  | [], text => text = []
  | part :: parts, text =>
    ∃ taken rest, text = taken ++ rest ∧ Takes taken rest part ∧ Matches parts rest

theorem fits_advance {text : List Char} {marks : Marks} (part : GlobPart)
    (h : marks.Fits text) : (advance text marks part).Fits text := by
  cases part with
  | star => exact Marks.fits_spreadFrom h
  | deep =>
    have hall : (marks.spread (fun _ => true) text).Fits text := Marks.fits_spreadFrom h
    exact Marks.fits_union (Marks.fits_union h (Marks.fits_stepFrom hall))
      (Marks.fits_onlyEnd hall)
  | _ => exact Marks.fits_stepFrom h

/-- A part leaves what comes after a text that it can take up. -/
theorem mem_rests_advance {text rest : List Char} {marks : Marks} (part : GlobPart)
    (h : marks.Fits text) :
    rest ∈ Marks.rests text (advance text marks part) ↔
      ∃ taken, Takes taken rest part ∧ taken ++ rest ∈ Marks.rests text marks := by
  cases part with
  | char c => simp [advance, Marks.mem_rests_step h, Takes]
  | any =>
    simp only [advance, Marks.mem_rests_step h, Takes]
    exact ⟨fun ⟨c, _, hmem⟩ => ⟨[c], ⟨c, rfl⟩, hmem⟩, fun ⟨_, ⟨c, rfl⟩, hmem⟩ => ⟨c, trivial, hmem⟩⟩
  | star => simp [advance, Marks.mem_rests_spread h, Takes]
  | oneOf ranges =>
    simp only [advance, Marks.mem_rests_step h, Takes]
    exact ⟨fun ⟨c, hc, hmem⟩ => ⟨[c], ⟨c, hc, rfl⟩, hmem⟩,
      fun ⟨_, ⟨c, hc, rfl⟩, hmem⟩ => ⟨c, hc, hmem⟩⟩
  | noneOf ranges =>
    simp only [advance, Marks.mem_rests_step h, Takes, Bool.not_eq_true']
    exact ⟨fun ⟨c, hc, hmem⟩ => ⟨[c], ⟨c, hc, rfl⟩, hmem⟩,
      fun ⟨_, ⟨c, hc, rfl⟩, hmem⟩ => ⟨c, hc, hmem⟩⟩
  | deep =>
    have hall : (marks.spread (fun _ => true) text).Fits text := Marks.fits_spreadFrom h
    have hstep : ((marks.spread (fun _ => true) text).step (· == '/') text).Fits text :=
      Marks.fits_stepFrom hall
    rw [advance, Marks.mem_rests_union (Marks.fits_union h hstep) (Marks.fits_onlyEnd hall),
      Marks.mem_rests_union h hstep, Marks.mem_rests_step hall, Marks.mem_rests_onlyEnd hall]
    simp only [Marks.mem_rests_spread h, Takes]
    constructor
    · rintro ((hmem | ⟨c, hc, items, _, hmem⟩) | ⟨hrest, items, _, hmem⟩)
      · exact ⟨[], Or.inl rfl, hmem⟩
      · exact ⟨items ++ [c], by simp_all, by simpa using hmem⟩
      · exact ⟨items, Or.inr (Or.inr hrest), hmem⟩
    · rintro ⟨taken, rfl | hlast | hrest, hmem⟩
      · exact Or.inl (Or.inl hmem)
      · obtain ⟨items, rfl⟩ := List.getLast?_eq_some_iff.1 hlast
        exact Or.inl (Or.inr ⟨'/', by simp, items, by simp, by simpa using hmem⟩)
      · exact Or.inr ⟨hrest, taken, by simp, hmem⟩

/-- Parts reach the end of a text when they take up something that is left at a mark. -/
theorem atEnd_foldl_advance {text : List Char} (parts : List GlobPart) {marks : Marks}
    (h : marks.Fits text) :
    (parts.foldl (advance text) marks).atEnd = true ↔
      ∃ rest ∈ Marks.rests text marks, Matches parts rest := by
  induction parts generalizing marks with
  | nil => simp [← Marks.nil_mem_rests h, Matches]
  | cons part parts ih =>
    rw [List.foldl_cons, ih (fits_advance part h)]
    simp only [mem_rests_advance part h, Matches]
    constructor
    · rintro ⟨rest, ⟨taken, htakes, hmem⟩, hmatches⟩
      exact ⟨taken ++ rest, hmem, taken, rest, rfl, htakes, hmatches⟩
    · rintro ⟨_, hmem, taken, rest, rfl, htakes, hmatches⟩
      exact ⟨rest, ⟨taken, htakes, hmem⟩, hmatches⟩

theorem isMatch_iff {parts : List GlobPart} {text : List Char} :
    isMatch parts text = true ↔ Matches parts text := by
  simp [isMatch, atEnd_foldl_advance parts (Marks.fits_atStart text), Marks.mem_rests_atStart]

end Glob

/-- Whether a pattern is a glob that matches the whole text. -/
def globMatches (pattern text : List Char) : Bool :=
  match Glob.parse? pattern with
  | some parts => Glob.isMatch parts text
  | none => false

end StagingAudit
