import StagingAudit.Proofs.ConfigCall.RoundTrip
import StagingAudit.Proofs.Model.Spelling
import StagingAudit.Proofs.Region.Closing

/-!
# Columns of a region

A region lists its columns between a leading `select` and the first `from` that stands between white
space. It is said to list several when there is a comma or a line break in between
(`selectsSeveral_iff`).

The region of the last block does not end at its closing parenthesis. If its body has a `select` and
no `from`, the columns go on behind the parenthesis, up to a `from` of another query. This is the
only way in which that text counts: **a region lists several columns if its body does, or if columns
are carried over** (`selectsSeveral_append_closing`, `CarriesOver`).
-/

namespace StagingAudit

/-- Whether a region lists several columns. -/
def SelectsSeveral (region : List Char) : Prop :=
  (selectList region).any RuleId.isExplicit = true

instance (region : List Char) : Decidable (SelectsSeveral region) :=
  inferInstanceAs (Decidable (_ = _))

/-- The text behind the `select` that a region starts with. -/
def columnsOf? : Recogniser := fun region =>
  (selectKeyword (skipWhite region)).bind Recogniser.white1

/-- `from` between white space. -/
def spacedFrom : Recogniser := fun cs => (Recogniser.white1 cs).bind fromClause

/-- Some text up to a `from` lists several columns. -/
def Several (columns : List Char) : Prop := ',' ∈ columns ∨ '\n' ∈ columns

instance (columns : List Char) : Decidable (Several columns) := inferInstanceAs (Decidable (_ ∨ _))

/-! ## What the search takes

The column list is cut out and then trimmed, while a comma or a line break is looked for in the
trimmed list. Nothing is lost by trimming. White space is skipped before the list starts, and the
leftmost `from` takes all the white space before it along. -/

/-- Columns do not start with white space. -/
theorem isWhite_head?_columnsOf? {region columns : List Char} (h : columnsOf? region = some columns) :
    ∀ c ∈ columns.head?, isWhite c = false := by
  obtain ⟨rest, -, hwhite⟩ := Option.bind_eq_some_iff.1 h
  obtain ⟨-, -, -, -, hhead⟩ := Recogniser.run_eq_some_iff.1 hwhite
  exact hhead

/-- What stands before the first `from` does not end with white space. -/
theorem isWhite_getLast?_of_spacedFrom {columns before rest : List Char}
    (h : find? spacedFrom columns = some (before, rest)) :
    ∀ c ∈ before.getLast?, isWhite c = false := by
  intro c hc
  obtain ⟨init, rfl⟩ := List.getLast?_eq_some_iff.1 hc
  obtain ⟨tail, -, hfound, hfirst⟩ := scan?_eq_some_iff.1 h
  rw [← Bool.not_eq_true]
  intro hwhite
  -- the white space in front of the `from` would start one character earlier
  obtain ⟨rest', hspace, hfrom⟩ := Option.bind_eq_some_iff.1 hfound
  obtain ⟨taken, -, htaken, htail, hhead⟩ := Recogniser.run_eq_some_iff.1 hspace
  have hspace' : Recogniser.white1 ([c] ++ tail) = some rest' := by
    refine Recogniser.run_eq_some_iff.2 ⟨c :: taken, by simp, ?_, by rw [htail]; rfl, hhead⟩
    intro d hd
    rcases List.mem_cons.1 hd with rfl | hd
    · exact hwhite
    · exact htaken d hd
  have hearlier := hfirst init [c] rfl (by simp)
  rw [spacedFrom, hspace', Option.bind_some, hfrom] at hearlier
  cases hearlier

/-- So nothing is trimmed from a column list. -/
theorem trimWhite_columns {region columns before rest : List Char}
    (hcolumns : columnsOf? region = some columns)
    (h : find? spacedFrom columns = some (before, rest)) : trimWhite before = before := by
  obtain ⟨tail, rfl, -, -⟩ := scan?_eq_some_iff.1 h
  have hhead : ∀ c ∈ before.head?, isWhite c = false := by
    intro c hc
    refine isWhite_head?_columnsOf? hcolumns c ?_
    rw [List.head?_append, Option.mem_def.1 hc]
    rfl
  have htrim := @trimClass_append isWhite [] before [] (by simp) (by simp) hhead
    (isWhite_getLast?_of_spacedFrom h)
  rwa [List.append_nil] at htrim

/-- A region lists several columns when there is a `from`, and a comma or a line break before it. -/
theorem selectsSeveral_iff {region : List Char} :
    SelectsSeveral region ↔
      ∃ columns ∈ columnsOf? region, ∃ found ∈ find? spacedFrom columns, Several found.1 := by
  have hspaced : (fun cs => (Recogniser.white1 cs).bind fromClause) = spacedFrom := rfl
  rw [SelectsSeveral, selectList, hspaced]
  cases hkeyword : selectKeyword (skipWhite region) with
  | none => simp [columnsOf?, hkeyword]
  | some rest =>
    simp only [Option.bind_eq_bind, Option.bind_some]
    cases hwhite : Recogniser.white1 rest with
    | none => simp [columnsOf?, hkeyword, hwhite]
    | some columns =>
      have hcolumns : columnsOf? region = some columns := by
        rw [columnsOf?, hkeyword, Option.bind_some, hwhite]
      simp only [Option.bind_some, hcolumns, Option.mem_some_iff, exists_eq_left']
      cases hfind : find? spacedFrom columns with
      | none =>
        -- at best the list is empty
        dsimp only
        split
        · simp [RuleId.isExplicit]
        · simp
      | some found =>
        simp [trimWhite_columns hcolumns hfind, Spelling.isExplicit_eq, Several]

/-! ## Behind a closing parenthesis

Neither the `select` at the start of a region nor a `from` goes past a parenthesis. So the text of a
region can be cut at the parenthesis that closes the body, and each of the two is in one of the
parts. With a `from` in the body the list ends there, whatever follows. Without a `select` in it
there is no list. What is left is a body with a `select` and no `from`, whose list is ended by the
text behind the parenthesis. -/

theorem haltsAt_columnsOf? : columnsOf?.HaltsAt ')' :=
  Recogniser.HaltsAt.bind ((Recogniser.haltsAt_folded (by decide)).behindWhite (by decide))
    (Recogniser.haltsAt_run (by decide))

theorem halts_spacedFrom : Halts ')' fun _ => spacedFrom := by
  have hfrom : fromClause.HaltsAt ')' :=
    Recogniser.HaltsAt.bind (Recogniser.haltsAt_folded (by decide))
      (Recogniser.haltsAt_run (by decide))
  have hspaced : spacedFrom.HaltsAt ')' :=
    Recogniser.HaltsAt.bind (Recogniser.haltsAt_run (by decide)) hfrom
  exact hspaced.halts rfl

/-- Columns of a body are carried over to the text behind its closing parenthesis: no block ends in
the body, a `select` stands at its start and no `from` in it, and up to the first `from` of the text
that belongs to the region there is a comma or a line break. -/
def CarriesOver (body tail : List Char) : Prop :=
  find? nextBlock body = none ∧ ∃ columns ∈ columnsOf? body, find? spacedFrom columns = none ∧
    ∃ found ∈ find? spacedFrom (upToNextBlock (')' :: tail)), Several (columns ++ found.1)

instance (body tail : List Char) : Decidable (CarriesOver body tail) :=
  inferInstanceAs (Decidable (_ ∧ ∃ columns ∈ columnsOf? body, _ ∧ ∃ found ∈ find? spacedFrom _, _))

/-- Then the body itself does not list several columns: there is no `from` behind its `select`. So
columns that are carried over are never those of the block alone. -/
theorem CarriesOver.not_selectsSeveral {body tail : List Char} (h : CarriesOver body tail) :
    ¬SelectsSeveral (upToNextBlock body) := by
  obtain ⟨hends, columns, hcolumns, hnone, -⟩ := h
  rw [upToNextBlock, hends, selectsSeveral_iff]
  rintro ⟨columns', hcolumns', found, hfound, -⟩
  obtain rfl := Option.mem_unique hcolumns hcolumns'
  rw [hnone] at hfound
  cases hfound

/-- What follows a closing parenthesis in a region starts with it, if there is anything. -/
theorem upToNextBlock_closing (tail : List Char) :
    upToNextBlock (')' :: tail) = [] ∨ ∃ more, upToNextBlock (')' :: tail) = ')' :: more := by
  rw [upToNextBlock]
  split
  · next region rest hfind =>
    obtain ⟨-, rest', htext, -⟩ := exists_of_scan? hfind
    cases region with
    | nil => exact .inl rfl
    | cons c region =>
      obtain ⟨rfl, -⟩ := List.cons.inj htext
      exact .inr ⟨region, rfl⟩
  · exact .inr ⟨tail, rfl⟩

/-- The columns of a body go on with what follows it. -/
theorem columnsOf?_append {more : List Char} (hmore : more = [] ∨ ∃ z, more = ')' :: z)
    (body : List Char) : columnsOf? (body ++ more) = (columnsOf? body).map (· ++ more) := by
  rcases hmore with rfl | ⟨z, rfl⟩
  · simp
  · exact haltsAt_columnsOf? body z

/-- They end at the first `from` of the body, or else at the first one behind it. -/
theorem find?_spacedFrom_append {more : List Char} (hmore : more = [] ∨ ∃ z, more = ')' :: z)
    (columns : List Char) :
    find? spacedFrom (columns ++ more) =
      ((find? spacedFrom columns).map fun (x, y) => (x, y ++ more)).or
        ((find? spacedFrom more).map fun (x, y) => (columns ++ x, y)) := by
  rcases hmore with rfl | ⟨z, rfl⟩
  · have hnil : find? spacedFrom [] = none := rfl
    simp [hnil]
  · rw [find?, halts_spacedFrom.scan?_append, scan?_ahead, scan?_ahead]

/-- **What follows the body of a block counts only for columns that are carried over.** -/
theorem selectsSeveral_append_closing (body tail : List Char) :
    SelectsSeveral (upToNextBlock (body ++ ')' :: tail)) ↔
      SelectsSeveral (upToNextBlock body) ∨ CarriesOver body tail := by
  cases hends : find? nextBlock body with
  | some found =>
    -- the region ends in the body
    have hregion : upToNextBlock (body ++ ')' :: tail) = upToNextBlock body := by
      rw [upToNextBlock, upToNextBlock, find?, halts_nextBlock.scan?_append, scan?_ahead, hends]
      rfl
    rw [hregion, CarriesOver, hends]
    simp
  | none =>
    have hbody : upToNextBlock body = body := by rw [upToNextBlock, hends]
    have hmore := upToNextBlock_closing tail
    rw [upToNextBlock_append hends, hbody, CarriesOver, selectsSeveral_iff, selectsSeveral_iff,
      columnsOf?_append hmore]
    cases columnsOf? body with
    | none => simp
    | some columns =>
      simp only [Option.map_some, Option.mem_some_iff, exists_eq_left', find?_spacedFrom_append hmore]
      cases find? spacedFrom columns with
      | some found => simp
      | none =>
        cases find? spacedFrom (upToNextBlock (')' :: tail)) with
        | none => simp
        | some found => simp [hends]

end StagingAudit
