import StagingAudit.Auditor

/-!
# Exclusion

An exclusion pattern is documented to exclude the paths in which it occurs, and those that it
matches as a glob (`Excludes`). What is looked for in a path is not the pattern, though, but the
pattern without its double stars. Without double stars that is the same. With them a pattern that
is no glob for a path is *misread* when only one of the two texts occurs in the path: a path may be
excluded by what is left of a pattern, and one in which the pattern stands may be kept.

**The pattern that is found is the documented one unless a misread pattern comes before it**
(`excludedBy?_documented_iff`).
-/

namespace StagingAudit

variable {pattern path : List Char}

/-! ## What patterns are documented to exclude -/

/-- Whether a text is something and occurs in a path. -/
def OccursIn (text path : List Char) : Prop := text ≠ [] ∧ text <:+: path

/-- Whether a pattern is a glob that matches the whole path. -/
def IsGlobFor (pattern path : List Char) : Prop :=
  ∃ parts, Glob.parse? pattern = some parts ∧ Glob.Matches parts path

/-- Whether a pattern is documented to exclude a path. -/
def Excludes (pattern path : List Char) : Prop := OccursIn pattern path ∨ IsGlobFor pattern path

/-- Whether an answer is the first of some patterns that excludes a path, or none if none does. -/
def IsFirstExcluding (patterns : List String) (path : List Char) : Option String → Prop
  | some p => ∃ before after, patterns = before ++ p :: after ∧ Excludes p.toList path ∧
      ∀ q ∈ before, ¬Excludes q.toList path
  | none => ∀ q ∈ patterns, ¬Excludes q.toList path

/-- A pattern with a double star is misread when it is no glob for the path, and either what is left
without its double stars occurs in the path or the pattern itself, but not both. -/
structure Misread (pattern path : List Char) : Prop where
  /-- there is a double star -/
  doubleStar : ['*', '*'] <:+: pattern
  /-- the glob does not decide -/
  noGlob : ¬IsGlobFor pattern path
  /-- only one of the two texts occurs -/
  differs : OccursIn (dropDoubleStars pattern) path ↔ ¬OccursIn pattern path

/-! ## What is looked for

The program and the documentation agree about globs, and about patterns without a double star. Apart
from these they look for two different texts in the path, the pattern and what is left of it, and
each of the two can occur without the other. An empty rest is not looked for. -/

theorem containsText_iff {text : List Char} : containsText text path = true ↔ text <:+: path := by
  rw [containsText, occurs]
  cases hfind : find? (Recogniser.literal text) path with
  | some found =>
    obtain ⟨before, rest⟩ := found
    have hpath := eq_of_cutAt? hfind
    exact iff_of_true rfl ⟨before, rest, hpath.symm⟩
  | none =>
    refine iff_of_false Bool.false_ne_true ?_
    rintro ⟨before, after, hpath⟩
    rw [List.append_assoc] at hpath
    exact ne_of_cutAt?_eq_none hfind before after hpath.symm

theorem occursIn_iff {text : List Char} :
    OccursIn text path ↔ (!text.isEmpty && containsText text path) = true := by
  rw [OccursIn, Bool.and_eq_true, containsText_iff]
  cases text <;> simp

theorem isGlobFor_iff : IsGlobFor pattern path ↔ globMatches pattern path = true := by
  rw [IsGlobFor, globMatches]
  cases Glob.parse? pattern with
  | none => simp
  | some parts => simp [Glob.isMatch_iff]

/-- A pattern hits a path as a glob, or when what is left without its double stars occurs in it. -/
theorem patternHits_iff : patternHits pattern path = true ↔
    IsGlobFor pattern path ∨ OccursIn (dropDoubleStars pattern) path := by
  rw [patternHits, Bool.or_eq_true, isGlobFor_iff, occursIn_iff]

/-- Without a double star nothing is dropped. -/
theorem dropDoubleStars_eq_self (h : ¬['*', '*'] <:+: pattern) :
    dropDoubleStars pattern = pattern := by
  fun_induction dropDoubleStars pattern with
  | case1 cs => exact absurd ⟨[], cs, rfl⟩ h
  | case2 c cs _ ih =>
    rw [ih fun hin => h (hin.trans (List.suffix_cons c cs).isInfix)]
  | case3 => rfl

/-- The patterns that do not do as documented are the misread ones. -/
theorem misread_iff : Misread pattern path ↔
    ¬(patternHits pattern path = true ↔ Excludes pattern path) := by
  rw [patternHits_iff, Excludes]
  constructor
  · rintro ⟨-, hglob, hdiffers⟩ hsame
    by_cases hoccurs : OccursIn pattern path
    · have hdropped := (hsame.2 (.inl hoccurs)).resolve_left hglob
      exact hdiffers.1 hdropped hoccurs
    · have hexcludes := (hsame.1 (.inr (hdiffers.2 hoccurs))).resolve_right hglob
      exact hoccurs hexcludes
  · intro hnot
    refine ⟨?_, fun hglob => hnot (iff_of_true (.inl hglob) (.inr hglob)), ?_⟩
    · refine Classical.byContradiction fun hplain => ?_
      rw [dropDoubleStars_eq_self hplain] at hnot
      exact hnot or_comm
    · by_cases hoccurs : OccursIn pattern path
      · refine iff_of_false (fun hdropped => ?_) (not_not_intro hoccurs)
        exact hnot (iff_of_true (.inr hdropped) (.inl hoccurs))
      · refine iff_of_true ?_ hoccurs
        refine Classical.byContradiction fun hdropped => hnot ⟨?_, ?_⟩
        · exact fun h => .inr (h.resolve_right hdropped)
        · exact fun h => .inl (h.resolve_left hoccurs)

instance (text path : List Char) : Decidable (OccursIn text path) :=
  decidable_of_iff _ occursIn_iff.symm

instance (pattern path : List Char) : Decidable (IsGlobFor pattern path) :=
  decidable_of_iff _ isGlobFor_iff.symm

instance (pattern path : List Char) : Decidable (Excludes pattern path) :=
  inferInstanceAs (Decidable (_ ∨ _))

/-! ## The first pattern -/

/-- Two searches find the same when they agree on every element that the second one gets to. -/
theorem find?_eq_find?_iff {α : Type} {p q : α → Bool} {xs : List α} :
    xs.find? p = xs.find? q ↔
      ∀ before x after, xs = before ++ x :: after → (∀ y ∈ before, q y = false) → p x = q x := by
  induction xs with
  | nil => simp
  | cons x xs ih =>
    constructor
    · intro h
      have hx : p x = q x := by
        cases hp : p x <;> cases hq : q x
        · rfl
        · rw [List.find?_cons_of_neg (by simp [hp]), List.find?_cons_of_pos hq] at h
          exact absurd (List.find?_some h) (by simp [hp])
        · rw [List.find?_cons_of_pos hp, List.find?_cons_of_neg (by simp [hq])] at h
          exact absurd (List.find?_some h.symm) (by simp [hq])
        · rfl
      intro before y after hsplit hbefore
      cases before with
      | nil =>
        obtain ⟨rfl, -⟩ := List.cons.inj hsplit
        exact hx
      | cons z before =>
        obtain ⟨rfl, rfl⟩ := List.cons.inj hsplit
        have hq := hbefore x (.head _)
        rw [List.find?_cons_of_neg (by simp [hx, hq]), List.find?_cons_of_neg (by simp [hq])] at h
        exact ih.1 h before y after rfl fun z hz => hbefore z (.tail _ hz)
    · intro h
      have hx := h [] x xs rfl nofun
      cases hq : q x with
      | true => rw [List.find?_cons_of_pos hq, List.find?_cons_of_pos (hx.trans hq)]
      | false =>
        rw [List.find?_cons_of_neg (by simp [hx, hq]), List.find?_cons_of_neg (by simp [hq])]
        refine ih.2 fun before y after hsplit hbefore => ?_
        refine h (x :: before) y after (by rw [hsplit, List.cons_append]) ?_
        exact List.forall_mem_cons.2 ⟨hq, hbefore⟩

section Patterns

variable {patterns : List String} {answer : Option String}

/-- There is one answer only, the one that a search gives. -/
theorem isFirstExcluding_iff : IsFirstExcluding patterns path answer ↔
    patterns.find? (fun p => decide (Excludes p.toList path)) = answer := by
  cases answer with
  | none => simp [IsFirstExcluding, List.find?_eq_none]
  | some p =>
    simp only [IsFirstExcluding, List.find?_eq_some_iff_append, decide_eq_true_eq,
      Bool.not_eq_true', decide_eq_false_iff_not]
    constructor
    · rintro ⟨before, after, hsplit, hp, hbefore⟩
      exact ⟨hp, before, after, hsplit, hbefore⟩
    · rintro ⟨hp, before, after, hsplit, hbefore⟩
      exact ⟨before, after, hsplit, hp, hbefore⟩

instance (patterns : List String) (path : List Char) (answer : Option String) :
    Decidable (IsFirstExcluding patterns path answer) :=
  decidable_of_iff _ isFirstExcluding_iff.symm

/-- A misread pattern comes before every pattern that excludes the path. -/
def MisreadFirst (patterns : List String) (path : List Char) : Prop :=
  ∃ before p after, patterns = before ++ p :: after ∧ Misread p.toList path ∧
    ∀ q ∈ before, ¬Excludes q.toList path

end Patterns

/-- **Exclusion is as documented unless a misread pattern comes first.** For any patterns and any
path, the pattern that is found is the first one that occurs in the path or is a glob for the whole
path, and none is found if there is none, exactly when no misread pattern comes before every such
one. -/
theorem excludedBy?_documented_iff (a : Auditor) (path : Path) :
    IsFirstExcluding a.exclude path.chars (a.excludedBy? path) ↔
      ¬MisreadFirst a.exclude path.chars := by
  rw [isFirstExcluding_iff, Auditor.excludedBy?, eq_comm, find?_eq_find?_iff, MisreadFirst]
  have hreads : ∀ p : String, patternHits p.toList path.chars =
      decide (Excludes p.toList path.chars) ↔ ¬Misread p.toList path.chars := by
    intro p
    rw [misread_iff, Classical.not_not, Bool.eq_iff_iff, decide_eq_true_eq]
  simp only [hreads, decide_eq_false_iff_not]
  constructor
  · rintro h ⟨before, p, after, hsplit, hmisread, hbefore⟩
    exact h before p after hsplit hbefore hmisread
  · intro h before p after hsplit hbefore hmisread
    exact h ⟨before, p, after, hsplit, hmisread, hbefore⟩

/-- An auditor that only leaves files out. -/
def excluder (patterns : List String) : Auditor :=
  ({ root := some (.ofString "/repo"), exclude := patterns } : Plan).build (.ofString "/")

/-- **A path is excluded by a part of a pattern**, and one in which a pattern stands is kept. The
first pattern is meant for what is called `archive`, and the path has a directory whose name only
starts like that. -/
theorem excludedBy?_misread :
    let archived := Path.ofString "/repo/staging/archived_sources/stg_a.sql"
    let starred := Path.ofString "/repo/staging/v1**final/stg_a.sql"
    (excluder ["**/archive"]).excludedBy? archived = some "**/archive" ∧
    ¬IsFirstExcluding ["**/archive"] archived.chars (some "**/archive") ∧
    IsFirstExcluding ["**/archive"] archived.chars none ∧
    (excluder ["v1**final"]).excludedBy? starred = none ∧
    ¬IsFirstExcluding ["v1**final"] starred.chars none ∧
    IsFirstExcluding ["v1**final"] starred.chars (some "v1**final") := by
  decide +kernel

/-- Patterns that are found as documented: as a text and as a glob with a double star. -/
example :
    let a := excluder ["wiserock_tables", "**/archive/*.sql"]
    [a.excludedBy? (.ofString "/repo/staging/wiserock_tables/stg_a.sql"),
      a.excludedBy? (.ofString "/repo/staging/archive/stg_b.sql"),
      a.excludedBy? (.ofString "/repo/staging/oda/stg.sql")] =
    [some "wiserock_tables", some "**/archive/*.sql", none] := by decide +kernel

end StagingAudit
