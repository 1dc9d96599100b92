/-!
# Marks

Patterns with stars are matched without going back: a reader keeps a *mark* on every place of the
text that the pattern so far can have reached, and every part of the pattern moves all marks at
once. There is one place before each item of the text and one at its end, so the work for a part is
one walk over the text, whatever came before it.

`Marks.rests` is what marks mean: the texts that are left at the marked places. The lemmas below
say what each move does to it.
-/

namespace StagingAudit

/-- A mark or none on each place of a text. -/
abbrev Marks := List Bool

namespace Marks

/-- One mark, before the text. -/
def atStart {α : Type} (text : List α) : Marks := true :: text.map fun _ => false

/-- Whether the end of the text is marked. -/
def atEnd (marks : Marks) : Bool := marks.getLastD false

/-- Moves every mark over one item of a class; `carry` says whether a mark arrives at the first
place. -/
def stepFrom {α : Type} (p : α → Bool) : Bool → List α → Marks → Marks
  | _, _, [] => []
  | carry, [], _ :: _ => [carry]
  | carry, a :: text, m :: marks => carry :: stepFrom p (m && p a) text marks

/-- Moves every mark over one item of a class. -/
def step {α : Type} (p : α → Bool) (text : List α) (marks : Marks) : Marks :=
  stepFrom p false text marks

/-- Spreads every mark over items of a class; `carry` says whether a mark spreads to the first
place. -/
def spreadFrom {α : Type} (p : α → Bool) : Bool → List α → Marks → Marks
  | _, _, [] => []
  | carry, [], m :: _ => [carry || m]
  | carry, a :: text, m :: marks => (carry || m) :: spreadFrom p ((carry || m) && p a) text marks

/-- Spreads every mark over any number of items of a class. -/
def spread {α : Type} (p : α → Bool) (text : List α) (marks : Marks) : Marks :=
  spreadFrom p false text marks

/-- The marks of both. -/
def union (a b : Marks) : Marks := List.zipWith (· || ·) a b

/-- Takes away every mark but the one at the end. -/
def onlyEnd : Marks → Marks
  | [] => []
  | [m] => [m]
  | _ :: m :: marks => false :: onlyEnd (m :: marks)

/-! ## What marks mean -/

/-- The texts left at the marked places, longest first. -/
def rests {α : Type} : List α → Marks → List (List α)
  | _, [] => []
  | [], m :: _ => if m then [[]] else []
  | a :: text, m :: marks => if m then (a :: text) :: rests text marks else rests text marks

/-- Whether the marks are made for a text: one for each place. -/
def Fits {α : Type} (text : List α) (marks : Marks) : Prop := marks.length = text.length + 1

theorem fits_cons {α : Type} {a : α} {text : List α} {m : Bool} {marks : Marks} :
    Fits (a :: text) (m :: marks) ↔ Fits text marks := by simp [Fits]

theorem not_fits_nil {α : Type} {text : List α} : ¬Fits text [] := by simp [Fits]

theorem fits_atStart {α : Type} (text : List α) : Fits text (atStart text) := by
  simp [Fits, atStart]

theorem fits_stepFrom {α : Type} {p : α → Bool} {carry : Bool} {text : List α} {marks : Marks}
    (h : Fits text marks) : Fits text (stepFrom p carry text marks) := by
  induction text generalizing carry marks with
  | nil =>
    cases marks with
    | nil => exact absurd h not_fits_nil
    | cons m marks => simp [Fits, stepFrom]
  | cons a text ih =>
    cases marks with
    | nil => exact absurd h not_fits_nil
    | cons m marks => exact fits_cons.2 (ih (fits_cons.1 h))

theorem fits_spreadFrom {α : Type} {p : α → Bool} {carry : Bool} {text : List α} {marks : Marks}
    (h : Fits text marks) : Fits text (spreadFrom p carry text marks) := by
  induction text generalizing carry marks with
  | nil =>
    cases marks with
    | nil => exact absurd h not_fits_nil
    | cons m marks => simp [Fits, spreadFrom]
  | cons a text ih =>
    cases marks with
    | nil => exact absurd h not_fits_nil
    | cons m marks => exact fits_cons.2 (ih (fits_cons.1 h))

theorem fits_union {α : Type} {text : List α} {a b : Marks} (ha : Fits text a)
    (hb : Fits text b) : Fits text (union a b) := by
  simp only [Fits] at *
  simp [union, ha, hb]

theorem fits_onlyEnd {α : Type} {text : List α} {marks : Marks} (h : Fits text marks) :
    Fits text (onlyEnd marks) := by
  have hlen : (onlyEnd marks).length = marks.length := by
    clear h
    fun_induction onlyEnd marks <;> simp_all
  simpa [Fits, hlen] using h

/-- Marks of a place before an item and of the places after it. -/
theorem mem_rests_cons {α : Type} {a : α} {text rest : List α} {m : Bool} {marks : Marks} :
    rest ∈ rests (a :: text) (m :: marks) ↔
      (m = true ∧ rest = a :: text) ∨ rest ∈ rests text marks := by
  cases m <;> simp [rests]

/-- Without marks nothing is left. -/
theorem rests_eq_nil {α : Type} {text : List α} {marks : Marks} (h : ∀ m ∈ marks, m = false) :
    rests text marks = [] := by
  fun_induction rests text marks <;> simp_all

/-- The only mark of `atStart` leaves the whole text. -/
theorem mem_rests_atStart {α : Type} {text rest : List α} :
    rest ∈ rests text (atStart text) ↔ rest = text := by
  cases text with
  | nil => simp [atStart, rests]
  | cons a text =>
    have hnone : rests text ((a :: text).map fun _ => false) = [] := rests_eq_nil (by simp)
    rw [atStart, mem_rests_cons, hnone]
    simp

/-- The end is marked when nothing can be left. -/
theorem nil_mem_rests {α : Type} {text : List α} {marks : Marks} (h : Fits text marks) :
    [] ∈ rests text marks ↔ atEnd marks = true := by
  induction text generalizing marks with
  | nil =>
    match marks, h with
    | [m], _ => cases m <;> simp [rests, atEnd]
  | cons a text ih =>
    cases marks with
    | nil => exact absurd h not_fits_nil
    | cons m marks =>
      have hfit := fits_cons.1 h
      cases marks with
      | nil => exact absurd hfit not_fits_nil
      | cons n marks =>
        rw [mem_rests_cons, ih hfit]
        simp [atEnd]

/-- After a step, what is left was left before with an item of the class in front of it. -/
theorem mem_rests_stepFrom {α : Type} {p : α → Bool} {carry : Bool} {text rest : List α}
    {marks : Marks} (h : Fits text marks) :
    rest ∈ rests text (stepFrom p carry text marks) ↔
      (carry = true ∧ rest = text) ∨ ∃ a, p a = true ∧ a :: rest ∈ rests text marks := by
  induction text generalizing carry marks with
  | nil =>
    match marks, h with
    | [m], _ => cases carry <;> cases m <;> simp [stepFrom, rests]
  | cons b text ih =>
    cases marks with
    | nil => exact absurd h not_fits_nil
    | cons m marks =>
      rw [stepFrom, mem_rests_cons, ih (fits_cons.1 h)]
      simp only [mem_rests_cons, Bool.and_eq_true, List.cons.injEq]
      grind

/-- After a step, what is left was left before with an item of the class in front of it. -/
theorem mem_rests_step {α : Type} {p : α → Bool} {text rest : List α} {marks : Marks}
    (h : Fits text marks) :
    rest ∈ rests text (step p text marks) ↔ ∃ a, p a = true ∧ a :: rest ∈ rests text marks := by
  simp [step, mem_rests_stepFrom h]

/-- After spreading, what is left was left before with items of the class in front of it. -/
theorem mem_rests_spreadFrom {α : Type} {p : α → Bool} {carry : Bool} {text rest : List α}
    {marks : Marks} (h : Fits text marks) :
    rest ∈ rests text (spreadFrom p carry text marks) ↔
      ∃ items, (∀ a ∈ items, p a = true) ∧
        ((carry = true ∧ items ++ rest = text) ∨ items ++ rest ∈ rests text marks) := by
  induction text generalizing carry marks with
  | nil =>
    match marks, h with
    | [m], _ =>
      constructor
      · intro hr
        refine ⟨[], by simp, ?_⟩
        cases carry <;> cases m <;> simp_all [spreadFrom, rests]
      · rintro ⟨items, _, hrest⟩
        cases carry <;> cases m <;> simp_all [spreadFrom, rests]
  | cons b text ih =>
    cases marks with
    | nil => exact absurd h not_fits_nil
    | cons m marks =>
      rw [spreadFrom, mem_rests_cons, ih (fits_cons.1 h)]
      simp only [mem_rests_cons]
      constructor
      · rintro (⟨hm, rfl⟩ | ⟨items, hall, hrest⟩)
        · exact ⟨[], by simp, by cases carry <;> simp_all⟩
        · rcases hrest with ⟨hcarry, heq⟩ | hmem
          · simp only [Bool.and_eq_true] at hcarry
            refine ⟨b :: items, by simp_all, ?_⟩
            cases carry <;> simp_all
          · exact ⟨items, hall, by simp [hmem]⟩
      · rintro ⟨items, hall, hrest⟩
        cases items with
        | nil =>
          rcases hrest with ⟨hcarry, heq⟩ | ⟨hm, heq⟩ | hmem
          · exact Or.inl ⟨by simp [hcarry], heq⟩
          · exact Or.inl ⟨by simp [hm], heq⟩
          · exact Or.inr ⟨[], by simp, Or.inr hmem⟩
        | cons c items =>
          right
          rcases hrest with ⟨hcarry, heq⟩ | ⟨hm, heq⟩ | hmem
          · simp only [List.cons_append, List.cons.injEq] at heq
            exact ⟨items, by simp_all, by simp_all⟩
          · simp only [List.cons_append, List.cons.injEq] at heq
            exact ⟨items, by simp_all, by simp_all⟩
          · exact ⟨c :: items, hall, Or.inr hmem⟩

/-- After spreading, what is left was left before with items of the class in front of it. -/
theorem mem_rests_spread {α : Type} {p : α → Bool} {text rest : List α} {marks : Marks}
    (h : Fits text marks) :
    rest ∈ rests text (spread p text marks) ↔
      ∃ items, (∀ a ∈ items, p a = true) ∧ items ++ rest ∈ rests text marks := by
  simp [spread, mem_rests_spreadFrom h]

/-- What either of two leaves. -/
theorem mem_rests_union {α : Type} {text rest : List α} {a b : Marks} (ha : Fits text a)
    (hb : Fits text b) :
    rest ∈ rests text (union a b) ↔ rest ∈ rests text a ∨ rest ∈ rests text b := by
  induction text generalizing a b with
  | nil =>
    match a, b, ha, hb with
    | [m], [n], _, _ => cases m <;> cases n <;> simp [union, rests]
  | cons x text ih =>
    match a, b, ha, hb with
    | m :: a, n :: b, ha, hb =>
      have hi := ih (fits_cons.1 ha) (fits_cons.1 hb)
      simp only [union, List.zipWith_cons_cons, mem_rests_cons] at hi ⊢
      rw [hi]
      simp only [Bool.or_eq_true]
      grind

/-- The end, if it was marked. -/
theorem mem_rests_onlyEnd {α : Type} {text rest : List α} {marks : Marks} (h : Fits text marks) :
    rest ∈ rests text marks.onlyEnd ↔ rest = [] ∧ rest ∈ rests text marks := by
  induction text generalizing marks with
  | nil =>
    match marks, h with
    | [m], _ => cases m <;> simp [onlyEnd, rests]
  | cons a text ih =>
    match marks, h with
    | [m], h => exact absurd (fits_cons.1 h) not_fits_nil
    | m :: n :: marks, h =>
      rw [onlyEnd, mem_rests_cons, mem_rests_cons, ih (fits_cons.1 h)]
      grind

end Marks

end StagingAudit
